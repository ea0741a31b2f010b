/-
  File:      Vireo/Net/EventLoopRun.lean
  Subject:   AN EVENT GOES TO THE REGISTRATION IT IS FOR, OR TO NOBODY.
-/
import Vireo.Net.EventLoop

namespace Vireo.Net

open Base Lib Function List

/-! ## 1. Tokens -/

theorem toNat_token {serial index : UInt64} (hserial : serial.toNat ≤ serialMax.toNat)
    (hindex : index.toNat < 65536) : (serial <<< 16 ||| index).toNat = serial.toNat * 65536 + index.toNat := by
  have hmax : serialMax.toNat = 281474976710655 := rfl
  have hshift : (serial <<< 16).toNat = serial.toNat * 65536 := by
    rw [UInt64.toNat_shiftLeft]
    show serial.toNat <<< 16 % 2 ^ 64 = serial.toNat * 65536
    rw [Nat.shiftLeft_eq]
    omega
  rw [UInt64.toNat_or, hshift]
  have hor := Nat.two_pow_add_eq_or_of_lt (i := 16) hindex serial.toNat
  rw [Nat.mul_comm] at hor
  exact hor.symm

/-! ## 2. The calls -/

section Calls

variable {β : Type} {l : EventLoop β}

theorem findRegistration_ok {handle : LoopHandle} {index : UInt64} (h : l.findRegistration handle = .ok index) :
    index < l.registrationCapacity ∧ (l.records index).active = true := by
  unfold EventLoop.findRegistration at h
  split at h
  · cases h
  split at h
  · cases h
  dsimp only at h
  split at h
  · cases h
  rename_i hindex
  split at h
  · cases h
  rename_i hactive
  cases h
  exact ⟨UInt64.not_le.mp hindex, (Bool.not_eq_false _).mp (not_or.mp hactive).1⟩

/-- What an add comes to: nothing, a token that the kernel did not take, or a registration. -/
inductive Added (l : EventLoop β) (registration : LoopRegistration β) : LoopCallOutcome β → Prop
  | refused {result : Result} {out : LoopHandle} : Added l registration (l.refuse result .none out)
  | failed {kernel : Result} {out : LoopHandle} (room : l.lastSerial ≠ serialMax)
      (free : l.freeHead ≠ l.registrationCapacity) (kernel_ne : kernel ≠ .ok) :
      Added l registration
        ⟨kernel, .add, out, { l with lastSerial := l.lastSerial + 1 }, some l.nextToken⟩
  | taken (room : l.lastSerial ≠ serialMax) (free : l.freeHead ≠ l.registrationCapacity) :
      Added l registration ⟨.ok, .none, ⟨l.loopId, l.nextToken⟩, { l with
        lastSerial := l.lastSerial + 1
        freeHead := (l.records l.freeHead).nextFree
        records := update l.records l.freeHead ⟨registration, l.nextToken, 0, true⟩
        registeredCount := l.registeredCount + 1
        availableCount := l.availableCount - 1 }, some l.nextToken⟩

theorem add_cases (l : EventLoop β) (registration : LoopRegistration β) (out : LoopHandle) (kernel : Result) :
    Added l registration (l.add registration out kernel) := by
  unfold EventLoop.add
  split
  · exact .refused
  split
  · exact .refused
  split
  · exact .refused
  rename_i hfree
  split
  · exact .refused
  rename_i hroom
  split
  · rename_i hkernel
    exact .failed hroom hfree hkernel
  · exact .taken hroom hfree

end Calls

/-! ## 3. The invariant -/

/-- A callback was called for the registration that the event is for, while it was active. -/
structure Dispatched {β : Type} (issued : List (LoopIssue β)) (d : LoopDispatch β) : Prop where
  active : (d.loop.records (d.event.token &&& slotMask)).active = true
  token : (d.loop.records (d.event.token &&& slotMask)).token = d.event.token
  binding : d.binding = (d.loop.records (d.event.token &&& slotMask)).registration
  handle : d.handle = ⟨d.loop.loopId, d.event.token⟩
  events : d.events = filterEvents d.binding.interests d.event.events
  some : d.events ≠ 0
  own : ∃ x ∈ issued, x.taken = true ∧ x.token = d.event.token ∧ x.registration.fd = d.binding.fd ∧
    x.registration.callback = d.binding.callback

/-- What the records and the issued tokens keep. -/
structure LoopInv {β : Type} (l : EventLoop β) (issued : List (LoopIssue β)) (free : List UInt64) : Prop where
  small : l.registrationCapacity.toNat ≤ 65536
  list : FreeList (fun i => (l.records i).nextFree) l.registrationCapacity l.freeHead
    (· < l.registrationCapacity) (fun i => (l.records i).active) free
  available : l.availableCount = free.length
  total : l.registeredCount + l.availableCount = l.registrationCapacity.toNat
  serial : l.lastSerial.toNat ≤ serialMax.toNat
  tokens : ∀ x ∈ issued, x.token.toNat / 65536 ≤ l.lastSerial.toNat
  once : (issued.map (·.token)).Nodup
  bound : ∀ i, i < l.registrationCapacity → (l.records i).active = true → ∃ x ∈ issued, x.taken = true ∧
    x.token = (l.records i).token ∧ x.registration.fd = (l.records i).registration.fd ∧
    x.registration.callback = (l.records i).registration.callback

section Kept

variable {β : Type} {l : EventLoop β} {issued : List (LoopIssue β)} {free : List UInt64}

section

variable (inv : LoopInv l issued free)
include inv

theorem toNat_succ_serial (room : l.lastSerial ≠ serialMax) :
    (l.lastSerial + 1).toNat = l.lastSerial.toNat + 1 ∧ (l.lastSerial + 1).toNat ≤ serialMax.toNat := by
  have hserial := inv.serial
  have hne : l.lastSerial.toNat ≠ serialMax.toNat := fun heq => room (UInt64.toNat_inj.mp heq)
  have hmax : serialMax.toNat = 281474976710655 := rfl
  have hsucc : (l.lastSerial + 1).toNat = l.lastSerial.toNat + 1 := by
    rw [UInt64.toNat_add]
    show (l.lastSerial.toNat + 1) % 2 ^ 64 = l.lastSerial.toNat + 1
    omega
  exact ⟨hsucc, by omega⟩

theorem head_lt (hfree : l.freeHead ≠ l.registrationCapacity) : l.freeHead < l.registrationCapacity := by
  obtain ⟨rest, rfl⟩ := inv.list.chain.of_ne hfree
  exact ((inv.list.mem l.freeHead).mp (mem_cons_self ..)).1

section

variable (room : l.lastSerial ≠ serialMax)
include room

section

variable (hfree : l.freeHead ≠ l.registrationCapacity)
include hfree

/-- **A token was never issued before**: its serial is above every serial so far. -/
theorem nextToken_new :
    l.nextToken.toNat / 65536 = l.lastSerial.toNat + 1 ∧ ∀ x ∈ issued, x.token ≠ l.nextToken := by
  obtain ⟨hsucc, hle⟩ := toNat_succ_serial inv room
  have hindex : l.freeHead.toNat < 65536 :=
    Nat.lt_of_lt_of_le (UInt64.lt_iff_toNat_lt.mp (head_lt inv hfree)) inv.small
  have htoken : l.nextToken.toNat = (l.lastSerial + 1).toNat * 65536 + l.freeHead.toNat := toNat_token hle hindex
  have hdiv : l.nextToken.toNat / 65536 = l.lastSerial.toNat + 1 := by omega
  refine ⟨hdiv, fun x hx heq => ?_⟩
  have hold := inv.tokens x hx
  rw [heq, hdiv] at hold
  omega

theorem loopInv_failed (registration : LoopRegistration β) (taken : Bool) :
    LoopInv { l with lastSerial := l.lastSerial + 1 } (⟨l.nextToken, registration, taken⟩ :: issued) free := by
  obtain ⟨hsucc, hle⟩ := toNat_succ_serial inv room
  obtain ⟨hdiv, hnew⟩ := nextToken_new inv room hfree
  refine ⟨inv.small, inv.list, inv.available, inv.total, hle, forall_mem_cons.mpr
    ⟨Nat.le_of_eq (hdiv.trans hsucc.symm), fun x hx => ?_⟩, ?_, fun i hi hactive => ?_⟩
  · have hold := inv.tokens x hx
    show x.token.toNat / 65536 ≤ (l.lastSerial + 1).toNat
    omega
  · refine nodup_cons.mpr ⟨fun hmem => ?_, inv.once⟩
    obtain ⟨x, hx, heq⟩ := mem_map.mp hmem
    exact hnew x hx heq
  · obtain ⟨x, hx, rest⟩ := inv.bound i hi hactive
    exact ⟨x, mem_cons_of_mem _ hx, rest⟩

/-- **A registration takes a free record**, under a token of its own. -/
theorem loopInv_taken (registration : LoopRegistration β) : ∃ free', LoopInv { l with
        lastSerial := l.lastSerial + 1
        freeHead := (l.records l.freeHead).nextFree
        records := update l.records l.freeHead ⟨registration, l.nextToken, 0, true⟩
        registeredCount := l.registeredCount + 1
        availableCount := l.availableCount - 1 } (⟨l.nextToken, registration, true⟩ :: issued) free' := by
  have hfailed := loopInv_failed inv room hfree registration true
  have hother : ∀ i, i ≠ l.freeHead →
      update l.records l.freeHead ⟨registration, l.nextToken, 0, true⟩ i = l.records i :=
    fun i hi => update_of_ne hi _ _
  have hmine : update l.records l.freeHead ⟨registration, l.nextToken, 0, true⟩ l.freeHead =
      ⟨registration, l.nextToken, 0, true⟩ := update_self ..
  obtain ⟨-, -, free', hsplit, hlist⟩ := inv.list.take
    (fun i => (update l.records l.freeHead ⟨registration, l.nextToken, 0, true⟩ i).nextFree)
    (fun i => (update l.records l.freeHead ⟨registration, l.nextToken, 0, true⟩ i).active)
    hfree (fun i hi => by rw [hother i hi]) (by rw [hmine]) (fun i hi => by rw [hother i hi])
  have havailable := inv.available
  have htotal := inv.total
  rw [hsplit, length_cons] at havailable
  refine ⟨free', inv.small, hlist, ?_, ?_, hfailed.serial, hfailed.tokens, hfailed.once, fun i hi hactive => ?_⟩
  · show l.availableCount - 1 = free'.length
    omega
  · show l.registeredCount + 1 + (l.availableCount - 1) = l.registrationCapacity.toNat
    omega
  · dsimp only at hactive ⊢
    by_cases heq : i = l.freeHead
    · rw [heq, hmine]
      exact ⟨_, mem_cons_self .., rfl, rfl, rfl, rfl⟩
    · rw [hother i heq] at hactive ⊢
      exact hfailed.bound i hi hactive

end

end

theorem loopInv_mod (handle : LoopHandle) (interests : UInt32) (kernel : Result) :
    LoopInv (l.mod handle interests kernel).loop issued free := by
  unfold EventLoop.mod
  split
  · exact inv
  split
  · exact inv
  rename_i index hfound
  split
  · exact inv
  have hsame : ∀ i, (update l.records index { l.records index with
      registration := { (l.records index).registration with interests := interests } } i) =
      { l.records i with registration := { (l.records i).registration with
        interests := if i = index then interests else (l.records i).registration.interests } } := by
    intro i
    by_cases heq : i = index
    · rw [heq, update_self, if_pos rfl]
    · rw [update_of_ne heq, if_neg heq]
  refine { inv with list := ?_, bound := fun i hi hactive => ?_ }
  · dsimp only
    simp only [hsame]
    exact inv.list
  · dsimp only at hactive ⊢
    rw [hsame] at hactive ⊢
    exact inv.bound i hi hactive

theorem loopInv_del (handle : LoopHandle) (kernel : Result) :
    ∃ free', LoopInv (l.del handle kernel).loop issued free' := by
  unfold EventLoop.del
  split
  · exact ⟨free, inv⟩
  rename_i index hfound
  obtain ⟨hindex, hactive⟩ := findRegistration_ok hfound
  split
  · exact ⟨free, inv⟩
  have hother : ∀ i, i ≠ index → update l.records index (.free l.freeHead) i = l.records i :=
    fun i hi => update_of_ne hi _ _
  have hmine : update l.records index (.free l.freeHead) index = .free l.freeHead :=
    update_self ..
  have hlist := inv.list.put (fun i => (update l.records index (.free l.freeHead) i).nextFree)
    (fun i => (update l.records index (.free l.freeHead) i).active) hindex hactive
    (by rw [hmine]; rfl) (fun i hi => by rw [hother i hi]) (by rw [hmine]; rfl)
    (fun i hi => by rw [hother i hi])
  have hlength := length_le_of_nodup hlist.nodup fun i hi => ((hlist.mem i).mp hi).1
  have havailable := inv.available
  have htotal := inv.total
  rw [length_cons] at hlength
  refine ⟨index :: free, inv.small, hlist, ?_, ?_, inv.serial, inv.tokens, inv.once, fun i hi hact => ?_⟩
  · show l.availableCount + 1 = (index :: free).length
    rw [length_cons, havailable]
  · show l.registeredCount - 1 + (l.availableCount + 1) = l.registrationCapacity.toNat
    omega
  · dsimp only at hact ⊢
    by_cases heq : i = index
    · rw [heq, hmine] at hact
      cases hact
    · rw [hother i heq] at hact ⊢
      exact inv.bound i hi hact

end

end Kept

/-! ## 4. Every run -/

/-- What every run keeps: the registrations, that every callback was called for its own, and the counts of
    every round. -/
structure LoopSystemInv {β : Type} (s : LoopSystem β) : Prop where
  loop : ∃ free, LoopInv s.loop s.issued free
  dispatched : ∀ d ∈ s.dispatched, Dispatched s.issued d
  rounds : ∀ r ∈ s.rounds, r.readyCount = r.staleCount + r.filteredCount + r.dispatchedCount

section Run

variable {β : Type} {s : LoopSystem β}

theorem Dispatched.mono {issued issued' : List (LoopIssue β)} {d : LoopDispatch β} (h : Dispatched issued d)
    (hsub : ∀ x ∈ issued, x ∈ issued') : Dispatched issued' d := by
  obtain ⟨x, hx, rest⟩ := h.own
  exact ⟨h.active, h.token, h.binding, h.handle, h.events, h.some, x, hsub x hx, rest⟩

theorem call_keeps (s : LoopSystem β) (c : LoopCall β) :
    (∀ x ∈ s.issued, x ∈ (s.call c).issued) ∧ (s.call c).dispatched = s.dispatched ∧
      (s.call c).rounds = s.rounds := by
  cases c with
  | add registration out kernel => exact ⟨fun x hx => mem_append_right _ hx, rfl, rfl⟩
  | mod handle interests kernel => exact ⟨fun x hx => hx, rfl, rfl⟩
  | del handle kernel => exact ⟨fun x hx => hx, rfl, rfl⟩
  | requestStop => exact ⟨fun x hx => hx, rfl, rfl⟩

theorem capacity_call (s : LoopSystem β) (c : LoopCall β) :
    (s.call c).loop.registrationCapacity = s.loop.registrationCapacity := by
  cases c with
  | add registration out kernel =>
    have hadded := add_cases s.loop registration out kernel
    rw [LoopSystem.call]
    generalize s.loop.add registration out kernel = o at hadded ⊢
    cases hadded <;> rfl
  | mod handle interests kernel =>
    unfold LoopSystem.call EventLoop.mod
    dsimp only
    split
    · rfl
    split
    · rfl
    · split <;> rfl
  | del handle kernel =>
    unfold LoopSystem.call EventLoop.del
    dsimp only
    split
    · rfl
    · split <;> rfl
  | requestStop => rfl

theorem loopInv_call (inv : ∃ free, LoopInv s.loop s.issued free) (c : LoopCall β) :
    ∃ free, LoopInv (s.call c).loop (s.call c).issued free := by
  obtain ⟨free, inv⟩ := inv
  cases c with
  | add registration out kernel =>
    have hadded := add_cases s.loop registration out kernel
    rw [LoopSystem.call]
    generalize s.loop.add registration out kernel = o at hadded ⊢
    cases hadded with
    | refused => exact ⟨free, inv⟩
    | failed room hfree hkernel => exact ⟨free, loopInv_failed inv room hfree registration _⟩
    | taken room hfree => exact loopInv_taken inv room hfree registration
  | mod handle interests kernel => exact ⟨free, loopInv_mod inv handle interests kernel⟩
  | del handle kernel => exact loopInv_del inv handle kernel
  | requestStop =>
    exact ⟨free, inv.small, inv.list, inv.available, inv.total, inv.serial, inv.tokens, inv.once, inv.bound⟩

theorem loopSystemInv_call (inv : LoopSystemInv s) (c : LoopCall β) : LoopSystemInv (s.call c) := by
  obtain ⟨hissued, hdispatched, hrounds⟩ := call_keeps s c
  refine ⟨loopInv_call inv.loop c, fun d hd => ?_, fun r hr => inv.rounds r (hrounds ▸ hr)⟩
  rw [hdispatched] at hd
  exact (inv.dispatched d hd).mono hissued

theorem loopSystemInv_calls (inv : LoopSystemInv s) (calls : List (LoopCall β)) :
    LoopSystemInv (calls.foldl LoopSystem.call s) ∧
      (calls.foldl LoopSystem.call s).loop.registrationCapacity = s.loop.registrationCapacity := by
  induction calls generalizing s with
  | nil => exact ⟨inv, rfl⟩
  | cons c rest ih =>
    obtain ⟨hinv, hcapacity⟩ := ih (loopSystemInv_call inv c)
    exact ⟨hinv, hcapacity.trans (capacity_call s c)⟩

/-- An event of the batch is the pipe's, or its slot is one of the loop. -/
def InBatch (capacity : UInt64) (event : EpollEvent) : Prop :=
  event.token = 0 ∨ event.token &&& slotMask < capacity

theorem inBatch_of_check {capacity : UInt64} {wake wake' : Bool} {events : List EpollEvent}
    (h : LoopSystem.checkBatch capacity wake events = .ok wake') : ∀ e ∈ events, InBatch capacity e := by
  induction events generalizing wake with
  | nil => exact fun e he => absurd he not_mem_nil
  | cons event rest ih =>
    unfold LoopSystem.checkBatch at h
    split at h
    · cases h
    split at h
    · rename_i hzero
      split at h
      · cases h
      exact forall_mem_cons.mpr ⟨.inl hzero, ih h⟩
    · split at h
      · cases h
      rename_i hslot
      exact forall_mem_cons.mpr ⟨.inr (UInt64.not_le.mp (not_or.mp hslot).2), ih h⟩

section

variable (inv : LoopSystemInv s) {stats : LoopRunInfo}
include inv

section

variable (hstats : stats.readyCount = stats.staleCount + stats.filteredCount + stats.dispatchedCount)
include hstats

/-- **One event of the walk**: it goes to the registration that is active under its token, and to nobody
    else. -/
theorem loopSystemInv_dispatchEvent {event : EpollEvent} (hevent : InBatch s.loop.registrationCapacity event)
    (calls : List (LoopCall β)) :
    LoopSystemInv (s.dispatchEvent stats event calls).1 ∧
      (s.dispatchEvent stats event calls).1.loop.registrationCapacity = s.loop.registrationCapacity ∧
      (s.dispatchEvent stats event calls).2.readyCount =
        (s.dispatchEvent stats event calls).2.staleCount + (s.dispatchEvent stats event calls).2.filteredCount +
          (s.dispatchEvent stats event calls).2.dispatchedCount := by
  unfold LoopSystem.dispatchEvent
  split
  · exact ⟨inv, rfl, hstats⟩
  rename_i hclient
  dsimp only
  split
  · refine ⟨inv, rfl, ?_⟩
    dsimp only
    omega
  · rename_i hrecord
    simp only [not_or, Bool.not_eq_false, ne_eq, not_not] at hrecord
    split
    · refine ⟨inv, rfl, ?_⟩
      dsimp only
      omega
    · rename_i hsome
      obtain ⟨free, hloop⟩ := inv.loop
      obtain ⟨x, hx, htaken, htoken, rest⟩ := hloop.bound _ (hevent.resolve_left hclient) hrecord.1
      have htold : LoopSystemInv { s with dispatched := ⟨event, s.loop, ⟨s.loop.loopId, event.token⟩,
          (s.loop.records (event.token &&& slotMask)).registration,
          filterEvents (s.loop.records (event.token &&& slotMask)).registration.interests event.events⟩ ::
            s.dispatched } :=
        ⟨inv.loop, forall_mem_cons.mpr
          ⟨⟨hrecord.1, hrecord.2, rfl, rfl, rfl, hsome, x, hx, htaken, htoken.trans hrecord.2, rest⟩,
            inv.dispatched⟩, inv.rounds⟩
      obtain ⟨hinv, hcapacity⟩ := loopSystemInv_calls htold calls
      refine ⟨hinv, hcapacity, ?_⟩
      dsimp only
      omega

/-- **The walk over a batch**, whatever the callbacks do to the registrations of the events behind. -/
theorem loopInv_dispatchAll {batch : LoopBatch β}
    (hbatch : ∀ e ∈ batch.map Prod.fst, InBatch s.loop.registrationCapacity e) :
    LoopSystemInv (s.dispatchAll stats batch).1 ∧ (s.dispatchAll stats batch).2.readyCount =
        (s.dispatchAll stats batch).2.staleCount + (s.dispatchAll stats batch).2.filteredCount +
          (s.dispatchAll stats batch).2.dispatchedCount := by
  induction batch generalizing s stats with
  | nil => exact ⟨inv, hstats⟩
  | cons first rest ih =>
    obtain ⟨event, calls⟩ := first
    obtain ⟨hinv, hcapacity, hnext⟩ :=
      loopSystemInv_dispatchEvent inv hstats (hbatch event (mem_cons_self ..)) calls
    refine ih hinv hnext fun e he => ?_
    rw [hcapacity]
    exact hbatch e (mem_cons_of_mem _ he)

end

theorem loopSystemInv_runRound (wait : Except Failure (LoopBatch β)) (n : Int)
    (cause : Nat) : LoopSystemInv (s.runRound wait n cause).2.2 := by
  unfold LoopSystem.runRound
  split
  · exact { inv with rounds := forall_mem_cons.mpr ⟨rfl, inv.rounds⟩ }
  · split
    · exact inv
    · rename_i batch
      split
      · exact inv
      split
      · exact inv
      rename_i wake hcheck
      split
      · exact inv
      have hzero : LoopRunInfo.zero.readyCount = LoopRunInfo.zero.staleCount +
          LoopRunInfo.zero.filteredCount + LoopRunInfo.zero.dispatchedCount := rfl
      obtain ⟨hinv, hcounts⟩ := loopInv_dispatchAll inv hzero (inBatch_of_check hcheck)
      exact { hinv with rounds := forall_mem_cons.mpr ⟨hcounts, hinv.rounds⟩ }

theorem LoopSystemInv.setRunActive (active : Bool) :
    LoopSystemInv { s with loop := { s.loop with runActive := active } } := by
  obtain ⟨free, hloop⟩ := inv.loop
  exact { inv with loop := ⟨free, hloop.small, hloop.list, hloop.available, hloop.total, hloop.serial, hloop.tokens, hloop.once,
    hloop.bound⟩ }

theorem loopSystemInv_runOnce (timeoutMs : Int) (wait : Except Failure (LoopBatch β))
    (n : Int) (cause : Nat) : LoopSystemInv (s.runOnce timeoutMs wait n cause).2.2 := by
  unfold LoopSystem.runOnce
  split
  · exact inv
  split
  · exact inv
  · exact (loopSystemInv_runRound (inv.setRunActive true) wait n cause).setRunActive false

end

theorem loopInv_create {options : EventLoopOptions} {source : UInt64} {resources : EventLoopResources}
    {l : EventLoop β} (h : EventLoop.create options source resources = .ok l) : ∃ free, LoopInv l [] free := by
  have hfresh : (∃ loopId, l = .fresh options loopId) ∧ options.registrationCapacity ≠ 0 ∧
      options.registrationCapacity ≤ EventLoop.maxEvents := by
    unfold EventLoop.create at h
    split at h
    · cases h
    rename_i hpositive
    simp only [not_or] at hpositive
    split at h
    · cases h
    split at h
    · cases h
    split at h
    · cases h
    split at h
    · cases h
    split at h
    · cases h
    rename_i hrange
    simp only [not_or] at hrange
    repeat' split at h
    all_goals cases h
    exact ⟨⟨_, rfl⟩, hpositive.2.1, UInt64.not_lt.mp hrange.2.1⟩
  obtain ⟨⟨loopId, rfl⟩, hpositive, hmax⟩ := hfresh
  have hsmall : options.registrationCapacity.toNat ≤ 65536 := UInt64.le_iff_toNat_le.mp hmax
  have hcapacity : 0 < options.registrationCapacity.toNat := by
    have hne : options.registrationCapacity.toNat ≠ 0 := fun heq => hpositive (UInt64.toNat_inj.mp heq)
    omega
  have hlast : ∀ i : UInt64, i.toNat + 1 = options.registrationCapacity.toNat →
      i + 1 = options.registrationCapacity := by
    intro i hi
    apply UInt64.toNat_inj.mp
    rw [UInt64.toNat_add]
    show (i.toNat + 1) % 2 ^ 64 = _
    omega
  have hlist : FreeList (fun i => ((.fresh options loopId : EventLoop β).records i).nextFree)
      options.registrationCapacity 0 (· < options.registrationCapacity) (fun _ => false) _ :=
    freeList_fresh hcapacity (UInt64.lt_irrefl _) (fun i _ => rfl) hlast fun _ => rfl
  refine ⟨_, hsmall, hlist, ?_, ?_, Nat.zero_le _, fun x hx => absurd hx not_mem_nil, nodup_nil,
    fun i _ hactive => by cases hactive⟩
  · show options.registrationCapacity.toNat = _
    rw [length_map, length_range']
  · show 0 + options.registrationCapacity.toNat = options.registrationCapacity.toNat
    omega

theorem LoopRun.inv (run : LoopRun β s) : LoopSystemInv s := by
  induction run with
  | start h =>
    exact ⟨loopInv_create h, fun d hd => absurd hd not_mem_nil, fun r hr => absurd hr not_mem_nil⟩
  | call _ c ih => exact loopSystemInv_call ih c
  | round _ timeoutMs wait n cause ih => exact loopSystemInv_runOnce ih timeoutMs wait n cause

end Run

/-! ## 5. What is delivered -/

theorem allowedEvents_bits (interests : UInt32) :
    (allowedEvents interests &&& eventRead ≠ 0 → interests &&& epollRead ≠ 0) ∧
    (allowedEvents interests &&& eventWrite ≠ 0 → interests &&& epollWrite ≠ 0) ∧
    (allowedEvents interests &&& eventPeerWriteClosed ≠ 0 → interests &&& epollPeerWriteClosed ≠ 0) ∧
    allowedEvents interests &&& ~~~knownEvents = 0 := by
  unfold allowedEvents
  by_cases hread : interests &&& epollRead = 0 <;> by_cases hwrite : interests &&& epollWrite = 0 <;>
    by_cases hpeer : interests &&& epollPeerWriteClosed = 0 <;>
    simp only [hread, hwrite, hpeer, ne_eq, not_true_eq_false, not_false_eq_true, if_true, if_false] <;>
    decide

theorem of_filterEvents {interests events bit : UInt32} (h : filterEvents interests events &&& bit ≠ 0) :
    events &&& bit ≠ 0 ∧ allowedEvents interests &&& bit ≠ 0 := by
  unfold filterEvents at h
  constructor
  · intro hzero
    apply h
    rw [UInt32.and_assoc, UInt32.and_comm (allowedEvents interests), ← UInt32.and_assoc, hzero, UInt32.zero_and]
  · intro hzero
    apply h
    rw [UInt32.and_assoc, hzero, UInt32.and_zero]

/-- **An event goes to the registration it is for, or to nobody.** In every state of every run no token was
    issued twice, and every callback was called while its record was active under exactly the event's token,
    with bits of the event; and the counts of every round add up. -/
theorem dispatch_safe {β : Type} {s : LoopSystem β} (run : LoopRun β s) :
    (∃ free, FreeList (fun i => (s.loop.records i).nextFree) s.loop.registrationCapacity s.loop.freeHead
        (· < s.loop.registrationCapacity) (fun i => (s.loop.records i).active) free ∧
      s.loop.availableCount = free.length) ∧
    s.loop.registeredCount + s.loop.availableCount = s.loop.registrationCapacity.toNat ∧
    (s.issued.map (·.token)).Nodup ∧
    (∀ d ∈ s.dispatched,
      (d.loop.records (d.event.token &&& slotMask)).active = true ∧
      (d.loop.records (d.event.token &&& slotMask)).token = d.event.token ∧
      d.binding = (d.loop.records (d.event.token &&& slotMask)).registration ∧
      d.handle = ⟨d.loop.loopId, d.event.token⟩ ∧
      (∃ x ∈ s.issued, x.taken = true ∧ x.token = d.event.token ∧ x.registration.fd = d.binding.fd ∧
        x.registration.callback = d.binding.callback ∧ ∀ y ∈ s.issued, y.token = d.event.token → y = x) ∧
      (∀ bit, d.events &&& bit ≠ 0 → d.event.events &&& bit ≠ 0) ∧
      (d.events &&& eventRead ≠ 0 → d.binding.interests &&& epollRead ≠ 0) ∧
      (d.events &&& eventWrite ≠ 0 → d.binding.interests &&& epollWrite ≠ 0) ∧
      (d.events &&& eventPeerWriteClosed ≠ 0 → d.binding.interests &&& epollPeerWriteClosed ≠ 0) ∧
      d.events &&& ~~~knownEvents = 0) ∧
    ∀ r ∈ s.rounds, r.readyCount = r.staleCount + r.filteredCount + r.dispatchedCount := by
  have inv := run.inv
  obtain ⟨free, hloop⟩ := inv.loop
  refine ⟨⟨free, hloop.list, hloop.available⟩, hloop.total, hloop.once, fun d hd => ?_, inv.rounds⟩
  have h := inv.dispatched d hd
  obtain ⟨x, hx, htaken, htoken, hfd, hcallback⟩ := h.own
  obtain ⟨hread, hwrite, hpeer, hknown⟩ := allowedEvents_bits d.binding.interests
  have hbits : ∀ bit, d.events &&& bit ≠ 0 →
      d.event.events &&& bit ≠ 0 ∧ allowedEvents d.binding.interests &&& bit ≠ 0 := fun bit hbit =>
    of_filterEvents (h.events ▸ hbit)
  refine ⟨h.active, h.token, h.binding, h.handle, ⟨x, hx, htaken, htoken, hfd, hcallback, fun y hy heq => ?_⟩,
    fun bit hbit => (hbits bit hbit).1, fun hbit => hread (hbits _ hbit).2, fun hbit => hwrite (hbits _ hbit).2,
    fun hbit => hpeer (hbits _ hbit).2, ?_⟩
  · exact inj_on_of_nodup_map hloop.once hy hx (heq.trans htoken.symm)
  · by_contra hsome
    exact (hbits _ hsome).2 hknown

/-- The callback of the first event removes the second's registration and takes its slot and descriptor: the
    second goes to nobody. -/
theorem dispatch_safe_reuse :
    let options : EventLoopOptions := ⟨4, 4096, 2⟩
    let start : LoopSystem Nat := ⟨.fresh options 1, [], [], []⟩
    let two := (start.call (.add ⟨5, epollRead, some 50⟩ ⟨0, 0⟩ .ok)).call (.add ⟨6, epollRead, some 60⟩ ⟨0, 0⟩ .ok)
    let reuse : List (LoopCall Nat) := [.del ⟨1, 131073⟩ .ok, .add ⟨6, epollRead, some 61⟩ ⟨0, 0⟩ .ok]
    let s := (two.runOnce (-1) (.ok [(⟨65536, eventRead⟩, reuse), (⟨131073, eventRead⟩, [])]) 0 0).2.2
    s.dispatched.map (·.binding.callback) = [some 50] ∧ s.rounds = [⟨2, 1, 1, 0⟩] ∧
      s.issued.map (·.token) = [196609, 131073, 65536] ∧
      s.loop.registeredCount + s.loop.availableCount = 2 := by
  intro options start two reuse s
  have created : EventLoop.create ⟨4, 4096, 2⟩ 0 ⟨true, true, true, .ok, some 0, true, .ok⟩ =
      .ok (.fresh ⟨4, 4096, 2⟩ 1 : EventLoop Nat) := rfl
  have run : LoopRun Nat s := .round (.call (.call (.start created) _) _) _ _ _ _
  have hcapacity : s.loop.registrationCapacity.toNat = 2 := by decide
  exact ⟨by decide, by decide, by decide, (dispatch_safe run).2.1.trans hcapacity⟩

end Vireo.Net
