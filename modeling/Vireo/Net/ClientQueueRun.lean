/-
  File:      Vireo/Net/ClientQueueRun.lean
  Subject:   THE SCHEDULE OF THE SERVER, over every run: its counters count its clients, its queue is a
             queue, and nobody is served twice or left out.
-/
import Mathlib.Algebra.BigOperators.Group.Finset.Piecewise
import Vireo.Lib.LinkedQueue
import Vireo.Net.ClientQueue

namespace Vireo.Net

open Base Lib Function List
open TcpServer
open UInt64 (lt_iff_toNat_lt ofNat_toNat toNat_inj)

/-! ## 1. The counters -/

/-- The sum of this over the slots of a table. -/
def slotTotal (capacity : UInt64) (clients : UInt64 → ClientSlot) (f : ClientSlot → Nat) : Nat :=
  Finset.sum (Finset.range capacity.toNat) fun i => f (clients (UInt64.ofNat i))

/-- The three counters are those of the slots, only live clients are bound, and there are none behind the
    capacity. -/
structure Accounts (capacity : UInt64) (clients : UInt64 → ClientSlot)
    (clientCount registeredClients bufferBytes : Nat) : Prop where
  bound : ∀ i, (clients i).bound = true → (clients i).live = true
  inside : ∀ i, (clients i).live = true → i < capacity
  live : clientCount = slotTotal capacity clients fun c => if c.live then 1 else 0
  registered : registeredClients = slotTotal capacity clients fun c => if c.bound then 1 else 0
  bytes : bufferBytes = slotTotal capacity clients fun c => if c.live then c.bufferBytes else 0

section Counters

variable {capacity : UInt64} {clients : UInt64 → ClientSlot} {clientCount registeredClients bufferBytes : Nat}
  {i : UInt64}

theorem slotTotal_update (clients : UInt64 → ClientSlot) (hi : i < capacity) (slot : ClientSlot)
    (f : ClientSlot → Nat) :
    slotTotal capacity (update clients i slot) f + f (clients i) = slotTotal capacity clients f + f slot := by
  have hmem : i.toNat ∈ Finset.range capacity.toNat := Finset.mem_range.mpr hi
  have hat : UInt64.ofNat i.toNat = i := ofNat_toNat
  have hrest : ∀ j ∈ (Finset.range capacity.toNat).erase i.toNat,
      f (update clients i slot (UInt64.ofNat j)) = f (clients (UInt64.ofNat j)) := by
    intro j hj
    obtain ⟨hne, hlt⟩ := Finset.mem_erase.mp hj
    have hsmall : j < 2 ^ 64 := Nat.lt_trans (Finset.mem_range.mp hlt) capacity.toNat_lt
    rw [update_of_ne]
    intro heq
    exact hne (by rw [← heq, UInt64.toNat_ofNat_of_lt' hsmall])
  unfold slotTotal
  rw [← Finset.add_sum_erase _ _ hmem, ← Finset.add_sum_erase _ (fun j => f (clients (UInt64.ofNat j))) hmem,
    Finset.sum_congr rfl hrest, hat, update_self]
  omega

section

variable (a : Accounts capacity clients clientCount registeredClients bufferBytes) {slot : ClientSlot}
include a

theorem Accounts.length_le {xs : List UInt64} (hnodup : xs.Nodup)
    (hxs : ∀ i ∈ xs, i < capacity ∧ (clients i).live = true) :
    xs.length ≤ clientCount := by
  have hmapped : (xs.map UInt64.toNat).Nodup := hnodup.map fun _ _ => toNat_inj.mp
  have hsub : (xs.map UInt64.toNat).toFinset ⊆
      (Finset.range capacity.toNat).filter fun i => (clients (UInt64.ofNat i)).live = true := by
    intro n hn
    obtain ⟨i, hi, rfl⟩ := mem_map.mp (mem_toFinset.mp hn)
    rw [Finset.mem_filter, Finset.mem_range, ofNat_toNat]
    exact hxs i hi
  have hcard := Finset.card_le_card hsub
  rw [toFinset_card_of_nodup hmapped, length_map, Finset.card_filter] at hcard
  rw [a.live]
  exact hcard

theorem Accounts.change (hi : i < capacity) (hbound : slot.bound = true → slot.live = true)
    {clientCount' registeredClients' bufferBytes' : Nat}
    (hlive : clientCount' + (if (clients i).live then 1 else 0) = clientCount + if slot.live then 1 else 0)
    (hregistered : registeredClients' + (if (clients i).bound then 1 else 0) =
      registeredClients + if slot.bound then 1 else 0)
    (hbytes : bufferBytes' + (if (clients i).live then (clients i).bufferBytes else 0) =
      bufferBytes + if slot.live then slot.bufferBytes else 0) :
    Accounts capacity (update clients i slot) clientCount' registeredClients' bufferBytes' := by
  have total := slotTotal_update clients hi slot
  refine ⟨fun j hj => ?_, fun j hj => ?_, ?_, ?_, ?_⟩
  · by_cases h : j = i
    · rw [h, update_self] at hj ⊢
      exact hbound hj
    · rw [update_of_ne h] at hj ⊢
      exact a.bound j hj
  · by_cases h : j = i
    · rw [h]
      exact hi
    · rw [update_of_ne h] at hj
      exact a.inside j hj
  · have := total fun c => if c.live then 1 else 0
    rw [a.live] at hlive
    exact Nat.add_right_cancel (hlive.trans this.symm)
  · have := total fun c => if c.bound then 1 else 0
    rw [a.registered] at hregistered
    exact Nat.add_right_cancel (hregistered.trans this.symm)
  · have := total fun c => if c.live then c.bufferBytes else 0
    rw [a.bytes] at hbytes
    exact Nat.add_right_cancel (hbytes.trans this.symm)

theorem Accounts.counted (hi : i < capacity) : (if (clients i).live then 1 else 0) ≤ clientCount ∧
      (if (clients i).bound then 1 else 0) ≤ registeredClients ∧
      (if (clients i).live then (clients i).bufferBytes else 0) ≤ bufferBytes := by
  have total := slotTotal_update clients hi .empty
  refine ⟨?_, ?_, ?_⟩
  · have := total fun c => if c.live then 1 else 0
    simp only [ClientSlot.empty, ← a.live] at this
    simp at this
    omega
  · have := total fun c => if c.bound then 1 else 0
    simp only [ClientSlot.empty, ← a.registered] at this
    simp at this
    omega
  · have := total fun c => if c.live then c.bufferBytes else 0
    simp only [ClientSlot.empty, ← a.bytes] at this
    simp at this
    omega

theorem Accounts.unbound (hidle : (clients i).live = false) : (clients i).bound = false := by
  cases h : (clients i).bound with
  | false => rfl
  | true =>
    rw [a.bound i h] at hidle
    cases hidle

section

variable (hi : i < capacity)
include hi

theorem Accounts.idle (hidle : (clients i).live = false) (hlive : slot.live = false)
    (hbound : slot.bound = false) :
    Accounts capacity (update clients i slot) clientCount registeredClients bufferBytes := by
  have hunbound := a.unbound hidle
  exact a.change hi (by simp [hbound]) (by simp [hidle, hlive]) (by simp [hunbound, hbound])
    (by simp [hidle, hlive])

theorem Accounts.publish (hidle : (clients i).live = false) (lease : Lease) (bytes : Nat) :
    Accounts capacity (update clients i ⟨lease, bytes, true, true⟩) (clientCount + 1)
      (registeredClients + 1) (bufferBytes + bytes) := by
  have hunbound := a.unbound hidle
  exact a.change hi (fun _ => rfl) (by simp [hidle]) (by simp [hunbound]) (by simp [hidle])

theorem Accounts.detach (hbound : (clients i).bound = true) : Accounts capacity
      (update clients i ⟨(clients i).lease, (clients i).bufferBytes, (clients i).live, false⟩)
      clientCount (registeredClients - 1) bufferBytes := by
  have hcounted := (a.counted hi).2.1
  rw [if_pos hbound] at hcounted
  refine a.change hi (fun h => by cases h) rfl ?_ rfl
  simp [hbound]
  omega

theorem Accounts.gone (hlive : (clients i).live = true) (hbound : (clients i).bound = false) :
    Accounts capacity (update clients i .empty) (clientCount - 1) registeredClients
      (bufferBytes - (clients i).bufferBytes) := by
  obtain ⟨hclient, -, hbytes⟩ := a.counted hi
  rw [if_pos hlive] at hclient hbytes
  refine a.change hi (fun h => by cases h) ?_ ?_ ?_
  · simp [hlive, ClientSlot.empty]
    omega
  · simp [hbound, ClientSlot.empty]
  · simp [hlive, ClientSlot.empty]
    omega

end

end

theorem accounts_opened : Accounts capacity (fun _ => .empty) 0 0 0 := by
  refine ⟨fun i h => h, fun i h => (Bool.noConfusion h), ?_, ?_, ?_⟩ <;> simp [slotTotal, ClientSlot.empty]

end Counters

/-! ## 2. The queue -/

/-- The links of the queue; behind the null link are its two ends. -/
def TcpServer.links (s : TcpServer) : Links (Option UInt64) where
  prev
    | none => s.queueTail
    | some i => (s.marks i).prev
  next
    | none => s.queueHead
    | some i => (s.marks i).next

/-- What the schedule keeps: the counters count, and the marked slots are those of the queue, with live
    clients only. -/
structure ScheduleInv (s : TcpServer) (xs : List UInt64) : Prop where
  accounts : Accounts s.table.connectionCapacity s.table.clients s.table.clientCount
    s.table.registeredClients s.table.bufferBytes
  queue : LinkedQueue s.links xs
  count : s.queueCount = xs.length
  queued : ∀ i, (s.marks i).queued = true ↔ i ∈ xs
  live : ∀ i ∈ xs, i < s.table.connectionCapacity ∧ (s.table.clients i).live = true

/-- Only the marks and the ends of the queue are not as they were. -/
def Relinked (s s' : TcpServer) : Prop :=
  ∃ marks head tail count, s' = { s with
    marks := marks, queueHead := head, queueTail := tail, queueCount := count }

section Queue

variable {s : TcpServer} {xs : List UInt64} {i : UInt64}

theorem marks_setMark {β : Type} (f : QueueMark → β) (mark : QueueMark) (hmark : f mark = f (s.marks i))
    (a : UInt64) : f ((s.setMark i mark).marks a) = f (s.marks a) := by
  simp only [setMark, update_apply]
  split
  · rename_i h
    rw [h, hmark]
  · rfl

theorem links_eq {l : Links (Option UInt64)} (htail : s.queueTail = l.prev none)
    (hhead : s.queueHead = l.next none) (hprev : ∀ a, (s.marks a).prev = l.prev (some a))
    (hnext : ∀ a, (s.marks a).next = l.next (some a)) : s.links = l := by
  have hp : s.links.prev = l.prev := funext fun | none => htail | some a => hprev a
  have hn : s.links.next = l.next := funext fun | none => hhead | some a => hnext a
  exact congrArg₂ Links.mk hp hn

section

variable (s : TcpServer)

theorem links_setNext (place next : Option UInt64) :
    (s.setNext place next).links = s.links.setNext place next := by
  cases place with
  | none => exact links_eq rfl rfl (fun _ => rfl) fun _ => rfl
  | some p =>
    refine links_eq rfl rfl (marks_setMark QueueMark.prev { s.marks p with next := next } rfl) fun a => ?_
    simp only [setNext, setMark, Links.setNext, update_apply, Option.some.injEq]
    split <;> rfl

theorem links_setPrev (place prev : Option UInt64) :
    (s.setPrev place prev).links = s.links.setPrev place prev := by
  cases place with
  | none => exact links_eq rfl rfl (fun _ => rfl) fun _ => rfl
  | some p =>
    refine links_eq rfl rfl (fun a => ?_) (marks_setMark QueueMark.next { s.marks p with prev := prev } rfl)
    simp only [setPrev, setMark, Links.setPrev, update_apply, Option.some.injEq]
    split <;> rfl

theorem links_setMark (i : UInt64) (mark : QueueMark) (hprev : mark.prev = (s.marks i).prev)
    (hnext : mark.next = (s.marks i).next) : (s.setMark i mark).links = s.links :=
  links_eq rfl rfl (marks_setMark QueueMark.prev mark hprev) (marks_setMark QueueMark.next mark hnext)

theorem queued_setNext (place next : Option UInt64) (a : UInt64) :
    ((s.setNext place next).marks a).queued = (s.marks a).queued := by
  cases place with
  | none => rfl
  | some p => exact marks_setMark QueueMark.queued { s.marks p with next := next } rfl a

theorem queued_setPrev (place prev : Option UInt64) (a : UInt64) :
    ((s.setPrev place prev).marks a).queued = (s.marks a).queued := by
  cases place with
  | none => rfl
  | some p => exact marks_setMark QueueMark.queued { s.marks p with prev := prev } rfl a

theorem relinked_refl : Relinked s s := ⟨s.marks, s.queueHead, s.queueTail, s.queueCount, rfl⟩

theorem relinked_setNext (place next : Option UInt64) : Relinked s (s.setNext place next) := by
  cases place with
  | none => exact ⟨s.marks, next, s.queueTail, s.queueCount, rfl⟩
  | some p => exact ⟨_, s.queueHead, s.queueTail, s.queueCount, rfl⟩

theorem relinked_setPrev (place prev : Option UInt64) : Relinked s (s.setPrev place prev) := by
  cases place with
  | none => exact ⟨s.marks, s.queueHead, prev, s.queueCount, rfl⟩
  | some p => exact ⟨_, s.queueHead, s.queueTail, s.queueCount, rfl⟩

theorem relinked_setMark (i : UInt64) (mark : QueueMark) : Relinked s (s.setMark i mark) :=
  ⟨_, s.queueHead, s.queueTail, s.queueCount, rfl⟩

theorem relinked_setCount (count : Nat) : Relinked s { s with queueCount := count } :=
  ⟨s.marks, s.queueHead, s.queueTail, count, rfl⟩

end

theorem Relinked.trans {s s' s'' : TcpServer} (h : Relinked s s') (h' : Relinked s' s'') : Relinked s s'' := by
  obtain ⟨_, _, _, _, rfl⟩ := h
  obtain ⟨marks, head, tail, count, rfl⟩ := h'
  exact ⟨marks, head, tail, count, rfl⟩

section

variable (s : TcpServer)

theorem relinked_enlist (i : UInt64) : Relinked s (s.enlist i) :=
  (((((relinked_setPrev s (some i) s.queueTail).trans (relinked_setNext _ (some i) none)).trans
    (relinked_setNext _ s.queueTail (some i))).trans (relinked_setPrev _ none (some i))).trans
    (relinked_setMark _ i _)).trans (relinked_setCount _ _)

theorem relinked_delist (i : UInt64) : Relinked s (s.delist i) :=
  (((relinked_setNext s (s.marks i).prev (s.marks i).next).trans
    (relinked_setPrev _ (s.marks i).next (s.marks i).prev)).trans
    (relinked_setMark _ i _)).trans (relinked_setCount _ _)

theorem links_enlist (i : UInt64) : (s.enlist i).links = s.links.append none (some i) := by
  have hmark := links_setMark ((((s.setPrev (some i) s.queueTail).setNext (some i) none).setNext s.queueTail
    (some i)).setPrev none (some i)) i { ((((s.setPrev (some i) s.queueTail).setNext (some i)
      none).setNext s.queueTail (some i)).setPrev none (some i)).marks i with queued := true } rfl rfl
  refine Eq.trans hmark ?_
  rw [links_setPrev, links_setNext, links_setNext, links_setPrev]
  rfl

theorem queued_enlist (i j : UInt64) :
    ((s.enlist i).marks j).queued = true ↔ (s.marks j).queued = true ∨ j = i := by
  unfold enlist
  simp only [setMark, update_apply]
  split
  · rename_i h
    simp [h]
  · rename_i h
    rw [queued_setPrev, queued_setNext, queued_setNext, queued_setPrev]
    exact (or_iff_left h).symm

theorem count_enlist (i : UInt64) : (s.enlist i).queueCount = s.queueCount + 1 := by
  cases h : s.queueTail <;> simp [enlist, setMark, setNext, setPrev, h]

theorem links_reset (i : UInt64) (mark : QueueMark) (hprev : mark.prev = none) (hnext : mark.next = none) :
    (s.setMark i mark).links = (s.links.setPrev (some i) none).setNext (some i) none := by
  refine links_eq rfl rfl (fun a => ?_) fun a => ?_ <;>
    simp only [setMark, Links.setPrev, Links.setNext, update_apply, Option.some.injEq] <;> split
  · exact hprev
  · rfl
  · exact hnext
  · rfl

theorem links_delist (i : UInt64) : (s.delist i).links = LinkedQueue.unlink s.links i := by
  have hmark := links_reset ((s.setNext (s.marks i).prev (s.marks i).next).setPrev (s.marks i).next
    (s.marks i).prev) i { ((s.setNext (s.marks i).prev (s.marks i).next).setPrev (s.marks i).next
      (s.marks i).prev).marks i with queued := false, prev := none, next := none, pendingEvents := 0 } rfl rfl
  refine Eq.trans hmark ?_
  rw [links_setPrev, links_setNext]
  rfl

theorem queued_delist (i j : UInt64) :
    ((s.delist i).marks j).queued = true ↔ (s.marks j).queued = true ∧ j ≠ i := by
  unfold delist
  simp only [setMark, update_apply]
  split
  · rename_i h
    simp [h]
  · rename_i h
    rw [queued_setPrev, queued_setNext]
    exact (and_iff_left h).symm

theorem count_delist (i : UInt64) : (s.delist i).queueCount = s.queueCount - 1 := by
  cases hp : (s.marks i).prev <;> cases hn : (s.marks i).next <;>
    simp [delist, setMark, setNext, setPrev, hp, hn]

end

section

variable (inv : ScheduleInv s xs)
include inv

theorem queueValid_eq : s.queueValid = true := by
  have hnodup := inv.queue.nodup
  have hroom : s.queueCount ≤ s.table.clientCount := by
    rw [inv.count]
    exact inv.accounts.length_le hnodup inv.live
  have hcapacity : s.queueCount ≤ s.table.connectionCapacity.toNat := by
    have hmapped : (xs.map UInt64.toNat).Nodup := hnodup.map fun _ _ => toNat_inj.mp
    have hsub : xs.map UInt64.toNat ⊆ List.range s.table.connectionCapacity.toNat := by
      intro n hn
      obtain ⟨i, hi, rfl⟩ := mem_map.mp hn
      exact mem_range.mpr (inv.live i hi).1
    have hle := (subperm_of_subset hmapped hsub).length_le
    rwa [length_map, length_range, ← inv.count] at hle
  have hhead : s.queueHead = xs.head? := inv.queue.next_none
  have htail : s.queueTail = xs.getLast? := inv.queue.prev_none
  unfold queueValid
  rw [if_neg (by omega)]
  cases xs with
  | nil => simp [inv.count, hhead, htail]
  | cons first rest =>
    obtain ⟨last, hlast⟩ : ∃ last, (first :: rest).getLast? = some last :=
      ⟨_, List.getLast?_eq_some_getLast (cons_ne_nil _ _)⟩
    obtain ⟨init, hinit⟩ := List.getLast?_eq_some_iff.mp hlast
    have hfirst := inv.live first (mem_cons_self ..)
    have hmem : last ∈ first :: rest := mem_of_getLast? hlast
    have hend := inv.live last hmem
    have hone : ((s.queueCount == 1) != (first == last)) = false := by
      rw [inv.count]
      cases rest with
      | nil =>
        obtain rfl : first = last := by simpa using hlast
        simp
      | cons second rest =>
        have hne : first ≠ last := by
          rw [List.getLast?_cons_cons] at hlast
          rintro rfl
          exact (nodup_cons.mp hnodup).1 (mem_of_getLast? hlast)
        simp [hne]
    have hprev : (s.marks first).prev = none := inv.queue.prev_head
    have hnext : (s.marks last).next = none := by
      have hqueue := inv.queue
      rw [hinit] at hqueue
      exact hqueue.next_last
    rw [if_neg (by simp [inv.count]), hhead, htail, hlast]
    simp only [List.head?_cons]
    rw [if_neg (by simp [hfirst.1, hend.1]), hone]
    simp [hfirst.2, hend.2, hprev, hnext, (inv.queued first).mpr (mem_cons_self ..), (inv.queued last).mpr hmem]

/-- **The check of a place in the queue passes** for every slot that has one. -/
theorem queuePosition_eq (hi : i ∈ xs) : s.queuePosition i = true := by
  obtain ⟨hp, hn, mp, mn⟩ := inv.queue.linked hi
  obtain ⟨hindex, hlive⟩ := inv.live i hi
  have hprev : s.links.prev (some i) = (s.marks i).prev := rfl
  have hnext : s.links.next (some i) = (s.marks i).next := rfl
  rw [hprev] at hp mp
  rw [hnext] at hn mn
  unfold queuePosition
  rw [if_neg (by simp [queueValid_eq inv, hindex]), if_neg (by simp [hlive, (inv.queued i).mpr hi]),
    Bool.and_eq_true]
  constructor
  · cases h : (s.marks i).prev with
    | none =>
      rw [h] at hp
      exact beq_iff_eq.mpr hp
    | some p =>
      rw [h] at hp
      have hmem := mp p h
      have hlink : (s.marks p).next = some i := hp
      simp [(inv.live p hmem).1, (inv.queued p).mpr hmem, hlink]
  · cases h : (s.marks i).next with
    | none =>
      rw [h] at hn
      exact beq_iff_eq.mpr hn
    | some n =>
      rw [h] at hn
      have hmem := mn n h
      have hlink : (s.marks n).prev = some i := hn
      simp [(inv.live n hmem).1, (inv.queued n).mpr hmem, hlink]

theorem ScheduleInv.relink {s' : TcpServer} {ys : List UInt64} (h : Relinked s s')
    (queue : LinkedQueue s'.links ys) (count : s'.queueCount = ys.length)
    (queued : ∀ i, (s'.marks i).queued = true ↔ i ∈ ys)
    (live : ∀ i ∈ ys, i < s.table.connectionCapacity ∧ (s.table.clients i).live = true) :
    ScheduleInv s' ys := by
  obtain ⟨_, _, _, _, rfl⟩ := h
  exact ⟨inv.accounts, queue, count, queued, live⟩

theorem ScheduleInv.clearMark (hi : i ∉ xs) : ScheduleInv (s.setMark i .empty) xs := by
  refine inv.relink (relinked_setMark s i .empty) ?_ inv.count (fun j => ?_) inv.live
  · rw [links_reset s i _ rfl rfl]
    exact inv.queue.setLinks hi none none
  · rw [← inv.queued]
    simp only [setMark, update_apply]
    split
    · rename_i h
      rw [h, inv.queued]
      simp [QueueMark.empty, hi]
    · rfl

theorem ScheduleInv.setTable {table : ClientTable Nat}
    (accounts : Accounts table.connectionCapacity table.clients table.clientCount table.registeredClients
      table.bufferBytes)
    (live : ∀ j ∈ xs, j < table.connectionCapacity ∧ (table.clients j).live = true) :
    ScheduleInv { s with table := table } xs :=
  { inv with accounts := accounts, live := live }

/-- **A live slot is put at the end of the queue**, or stays where it is. -/
theorem queueAppend_spec (hi : i < s.table.connectionCapacity) (hlive : (s.table.clients i).live = true) :
    ∃ s', s.queueAppend i = (.ok, s') ∧ Relinked s s' ∧ ScheduleInv s' (if i ∈ xs then xs else xs ++ [i]) := by
  unfold queueAppend
  rw [if_neg (by simp [queueValid_eq inv, hi]), if_neg (by simp [hlive])]
  by_cases hmem : i ∈ xs
  · rw [if_pos ((inv.queued i).mpr hmem), if_pos (queuePosition_eq inv hmem), if_pos hmem]
    exact ⟨s, rfl, relinked_refl s, inv⟩
  · have hlives : ∀ j ∈ xs ++ [i], j < s.table.connectionCapacity ∧ (s.table.clients j).live = true := by
      intro j hj
      rcases mem_append.mp hj with old | new
      · exact inv.live j old
      · rw [mem_singleton.mp new]
        exact ⟨hi, hlive⟩
    have hnodup : (xs ++ [i]).Nodup := by
      refine nodup_append.mpr ⟨inv.queue.nodup, nodup_singleton i, fun a ha b hb => ?_⟩
      rintro rfl
      exact hmem (mem_singleton.mp hb ▸ ha)
    have hroom : ¬ s.queueCount ≥ s.table.clientCount := by
      have hle := inv.accounts.length_le hnodup hlives
      rw [length_append, ← inv.count] at hle
      exact Nat.not_le.mpr hle
    rw [if_neg (fun h => hmem ((inv.queued i).mp h)), if_neg hroom, if_neg hmem]
    refine ⟨s.enlist i, rfl, relinked_enlist s i, inv.relink (relinked_enlist s i) ?_ ?_ ?_ hlives⟩
    · rw [links_enlist]
      exact inv.queue.append hmem
    · rw [count_enlist, inv.count, length_append, length_singleton]
    · intro j
      rw [queued_enlist, inv.queued, mem_append, mem_singleton]

theorem queueRemove_spec (hi : i < s.table.connectionCapacity) :
    ∃ s', s.queueRemove i = (.ok, s') ∧ Relinked s s' ∧ ScheduleInv s' (xs.erase i) := by
  unfold queueRemove
  rw [if_neg (by simp [queueValid_eq inv, hi])]
  by_cases hmem : i ∈ xs
  · have hlives : ∀ j ∈ xs.erase i, j < s.table.connectionCapacity ∧ (s.table.clients j).live = true :=
      fun j hj => inv.live j (mem_of_mem_erase hj)
    have hmark : (s.marks i).queued = true := (inv.queued i).mpr hmem
    rw [if_neg (by simp [hmark]), if_neg (by simp [queuePosition_eq inv hmem])]
    refine ⟨s.delist i, rfl, relinked_delist s i, inv.relink (relinked_delist s i) ?_ ?_ ?_ hlives⟩
    · obtain ⟨before, after, hsplit⟩ := append_of_mem hmem
      have hqueue := inv.queue
      rw [hsplit] at hqueue
      have hbefore : i ∉ before := by
        have hnodup := nodup_middle.mp hqueue.nodup
        exact fun h => (nodup_cons.mp hnodup).1 (mem_append_left _ h)
      rw [links_delist, hsplit, erase_append_right _ hbefore, erase_cons_head]
      exact hqueue.unlink_mem
    · rw [count_delist, inv.count, length_erase_of_mem hmem]
    · intro j
      rw [queued_delist, inv.queued, inv.queue.nodup.mem_erase_iff, and_comm]
  · rw [if_pos (by
      cases h : (s.marks i).queued with
      | false => rfl
      | true => exact absurd ((inv.queued i).mp h) hmem), erase_of_not_mem hmem]
    exact ⟨s, rfl, relinked_refl s, inv⟩

end

end Queue

/-! ## 3. Clients that leave -/

/-- What a call on one slot leaves of the server, whatever it does to the slot and to the queue. -/
structure SameServer (s s' : TcpServer) : Prop where
  created : s'.created = s.created
  release : s'.autoReleaseReady = s.autoReleaseReady
  close : s'.autoClosePolicy = s.autoClosePolicy
  shutdownNextSlot : s'.shutdownNextSlot = s.shutdownNextSlot
  closeNextSlot : s'.closeNextSlot = s.closeNextSlot
  fault : s'.queueFault = s.queueFault
  capacity : s'.table.connectionCapacity = s.table.connectionCapacity
  stop : s'.table.stopRequested = s.table.stopRequested

/-- Every slot but this one has the client that it had. -/
def SameSlots (i : UInt64) (s s' : TcpServer) : Prop :=
  ∀ j, j ≠ i → s'.table.clients j = s.table.clients j

section Leaving

variable {s s' s'' : TcpServer} {xs : List UInt64} {i : UInt64}

theorem SameServer.refl (s : TcpServer) : SameServer s s := ⟨rfl, rfl, rfl, rfl, rfl, rfl, rfl, rfl⟩

theorem SameServer.trans (h : SameServer s s') (h' : SameServer s' s'') : SameServer s s'' :=
  ⟨h'.created.trans h.created, h'.release.trans h.release, h'.close.trans h.close,
    h'.shutdownNextSlot.trans h.shutdownNextSlot, h'.closeNextSlot.trans h.closeNextSlot,
    h'.fault.trans h.fault, h'.capacity.trans h.capacity, h'.stop.trans h.stop⟩

theorem Relinked.same (h : Relinked s s') : SameServer s s' := by
  obtain ⟨_, _, _, _, rfl⟩ := h
  exact ⟨rfl, rfl, rfl, rfl, rfl, rfl, rfl, rfl⟩

theorem Relinked.table (h : Relinked s s') : s'.table = s.table := by
  obtain ⟨_, _, _, _, rfl⟩ := h
  rfl

/-- What a release comes to, for the slot it is about. -/
inductive Released (s : TcpServer) (xs : List UInt64) (i : UInt64) : Result × Bool × TcpServer → Prop
  | kept {r : Result} {s' : TcpServer} (inv : ScheduleInv s' xs) (same : SameServer s s') (others : SameSlots i s s')
      (live : (s'.table.clients i).live = (s.table.clients i).live)
      (lease : (s'.table.clients i).lease = (s.table.clients i).lease) : Released s xs i (r, false, s')
  | gone {r : Result} {s' : TcpServer} (inv : ScheduleInv s' (xs.erase i)) (same : SameServer s s')
      (others : SameSlots i s s') : Released s xs i (r, true, s')

section

variable (inv : ScheduleInv s xs) {client : Lease}
include inv

theorem ScheduleInv.setPool (pool : ConnectionPool Nat) :
    ScheduleInv { s with table := { s.table with pool := pool } } xs := inv.setTable inv.accounts inv.live

section

variable (hi : client.slotIndex < s.table.connectionCapacity)
include hi

theorem giveUp_table (connection : Nat) (closeFails : Bool) :
    (s.giveUp connection client closeFails).1 = (s.table.giveUp connection client closeFails).1 ∧
      (s.giveUp connection client closeFails).2.2.table = (s.table.giveUp connection client closeFails).2 := by
  unfold giveUp ClientTable.giveUp
  dsimp only
  split
  · split
    · exact ⟨rfl, rfl⟩
    · obtain ⟨s', hremoved, ⟨_, _, _, _, rfl⟩, -⟩ := queueRemove_spec (i := client.slotIndex)
        (inv.setPool (s.table.pool.release client
          (destroyConnection (s.table.connections connection) closeFails)).2.2) hi
      rw [hremoved]
      exact ⟨rfl, rfl⟩
  · exact ⟨rfl, rfl⟩

theorem giveUp_spec (hlive : (s.table.clients client.slotIndex).live = true)
    (hbound : (s.table.clients client.slotIndex).bound = false) (connection : Nat) (closeFails : Bool) :
    Released s xs client.slotIndex (s.giveUp connection client closeFails) := by
  have hkept := fun pool => inv.setPool pool
  have kept : ∀ (r : Result) (pool : ConnectionPool Nat), Released s xs client.slotIndex
      (r, false, { s with table := { s.table with pool := pool } }) :=
    fun r pool => .kept (hkept pool) ⟨rfl, rfl, rfl, rfl, rfl, rfl, rfl, rfl⟩ (fun _ _ => rfl) rfl rfl
  rw [giveUp]
  split
  · split
    · exact kept _ _
    · obtain ⟨s', hremoved, ⟨marks, head, tail, count, rfl⟩, hinv⟩ := queueRemove_spec (i := client.slotIndex)
        (hkept (s.table.pool.release client
          (destroyConnection (s.table.connections connection) closeFails)).2.2) hi
      rw [hremoved]
      refine .gone ?_ ⟨rfl, rfl, rfl, rfl, rfl, rfl, rfl, rfl⟩ fun j hj => update_of_ne hj _ _
      have hout : client.slotIndex ∉ xs.erase client.slotIndex := inv.queue.nodup.not_mem_erase
      refine (hinv.clearMark hout).setTable (inv.accounts.gone hi hlive hbound) fun j hj => ?_
      have hne : j ≠ client.slotIndex := fun h => hout (h ▸ hj)
      have hold := inv.live j (mem_of_mem_erase hj)
      refine ⟨hold.1, ?_⟩
      show (update s.table.clients client.slotIndex .empty j).live = true
      rw [update_of_ne hne]
      exact hold.2
  · exact kept _ _

theorem ScheduleInv.detach (hbound : (s.table.clients client.slotIndex).bound = true) (connection : Nat) :
    ScheduleInv { s with table := s.table.detach connection client } xs := by
  refine inv.setTable (inv.accounts.detach hi hbound) fun j hj => ⟨(inv.live j hj).1, ?_⟩
  show (update s.table.clients client.slotIndex _ j).live = true
  by_cases h : j = client.slotIndex
  · rw [h, update_self]
    exact inv.accounts.bound _ hbound
  · rw [update_of_ne h]
    exact (inv.live j hj).2

end

/-- **What a release does to the schedule**, and that it is the release of the table. -/
theorem releaseClient_spec {lent : List (Lent Nat)} {issued : List Lease}
    (table : ClientTableInv s.table lent issued) (client : Lease) (detached : Result) (closeFails : Bool) :
    (s.releaseClient client detached closeFails).1 = (s.table.releaseClient client detached closeFails).1 ∧
      (s.releaseClient client detached closeFails).2.2.table =
        (s.table.releaseClient client detached closeFails).2 ∧
      Released s xs client.slotIndex (s.releaseClient client detached closeFails) := by
  have kept : ∀ r : Result, Released s xs client.slotIndex (r, false, s) :=
    fun r => .kept inv (.refl s) (fun _ _ => rfl) rfl rfl
  unfold releaseClient ClientTable.releaseClient
  cases hfind : s.table.findClient client with
  | error e => exact ⟨rfl, rfl, kept _⟩
  | ok connection =>
    obtain ⟨l, hl, rfl, rfl⟩ := (findClient_eq_ok_iff table).mp hfind
    obtain ⟨free, hpool⟩ := table.pool
    have hi : l.lease.slotIndex < s.table.connectionCapacity := by
      rw [← table.capacity, hpool.capacity]
      exact ((hpool.storage.current _).mp (mem_map_of_mem hl)).index
    have hlive := (table.live l hl).1
    dsimp only
    split
    · exact ⟨rfl, rfl, kept _⟩
    split
    · rename_i hbound
      split
      · exact ⟨rfl, rfl, kept _⟩
      have hinv := inv.detach hi hbound l.owner
      obtain ⟨hresult, htable⟩ := giveUp_table hinv hi l.owner closeFails
      refine ⟨hresult, htable, ?_⟩
      have hslot : (s.table.detach l.owner l.lease).clients l.lease.slotIndex =
          { s.table.clients l.lease.slotIndex with bound := false } := update_self ..
      have hothers : SameSlots l.lease.slotIndex s { s with table := s.table.detach l.owner l.lease } :=
        fun j hj => update_of_ne hj _ _
      have hspec := giveUp_spec hinv hi ((congrArg (·.live) hslot).trans hlive)
        (congrArg (·.bound) hslot) l.owner closeFails
      generalize giveUp _ l.owner l.lease closeFails = o at hspec ⊢
      cases hspec with
      | kept inv' same others live lease =>
        exact .kept inv' { same with } (fun j hj => (others j hj).trans (hothers j hj))
          (live.trans (congrArg (·.live) hslot)) (lease.trans (congrArg (·.lease) hslot))
      | gone inv' same others =>
        exact .gone inv' { same with } fun j hj => (others j hj).trans (hothers j hj)
    · rename_i hbound
      obtain ⟨hresult, htable⟩ := giveUp_table inv hi l.owner closeFails
      exact ⟨hresult, htable, giveUp_spec inv hi hlive (by simpa using hbound) l.owner closeFails⟩

end

end Leaving

/-! ## 4. Turns -/

/-- What a server keeps, with its queue: its table in order, the schedule, and two cursors that point at
    slots. -/
structure ServerInv (s : TcpServer) (xs : List UInt64) : Prop where
  table : ∃ lent issued, ClientTableInv s.table lent issued ∧ ∀ l ∈ lent, l.owner < s.created
  schedule : ScheduleInv s xs
  shutdown : s.shutdownNextSlot < s.table.connectionCapacity
  close : s.closeNextSlot < s.table.connectionCapacity

/-- What stopped a turn, if anything did. -/
def ClientTurn.outcome (turn : ClientTurn) : Result :=
  if turn.result ≠ .ok then turn.result
  else if turn.closeResult ≠ .ok then turn.closeResult
  else turn.releaseResult

/-- The client is still there, and has more to do. -/
def ClientTurn.requeued (turn : ClientTurn) : Bool :=
  decide (turn.outcome = .ok) && !turn.released && (turn.needsProcessing || turn.closeRequeued)

/-- What the driver said. -/
def ClientTurn.told (turn : ClientTurn) : Result × Bool × Bool :=
  (turn.result, turn.needsProcessing, turn.readyToRelease)

def TurnOutcome.tells (o : TurnOutcome) : Result × Bool × Bool := (o.result, o.needsProcessing, o.readyToRelease)

/-- A turn that went well so far. -/
structure ClientTurn.Well (turn : ClientTurn) (client : Lease) (o : TurnOutcome) : Prop where
  client : turn.client = client
  told : turn.told = o.tells
  result : turn.result = .ok
  close : turn.closeResult = .ok ∧ turn.closeRequeued = false
  release : turn.releaseResult = .ok ∧ turn.released = false

/-- What a turn comes to for the first client of the queue: it goes back to the end of the queue or stays out
    of it. -/
structure TurnSpec (s : TcpServer) (rest : List UInt64) (i : UInt64) (client : Lease) (o : TurnOutcome)
    (served : Served) : Prop where
  turn : ∃ turn, served.turn = some turn ∧ turn.client = client ∧ turn.told = o.tells ∧
    served.result = turn.outcome ∧ served.requeued = turn.requeued
  stage : served.stage ≠ .queue
  same : SameServer s served.server
  others : SameSlots i s served.server
  inv : ServerInv served.server (if served.requeued then rest ++ [i] else rest)

section Turns

variable {s s' : TcpServer} {xs rest : List UInt64} {i : UInt64} {client : Lease} {turn : ClientTurn}

section

variable (inv : ServerInv s xs)
include inv

theorem ServerInv.lease (hi : i < s.table.connectionCapacity) (hlive : (s.table.clients i).live = true) :
    (s.table.clients i).lease.slotIndex = i ∧ ∃ connection, s.table.findClient (s.table.clients i).lease =
      .ok connection := by
  obtain ⟨lent, issued, table, -⟩ := inv.table
  obtain ⟨l, hl, rfl⟩ : ∃ l ∈ lent, l.lease.slotIndex = i := by
    by_contra hnone
    have hidle := table.idle i hi fun l hl heq => hnone ⟨l, hl, heq⟩
    rw [hidle] at hlive
    cases hlive
  rw [(table.live l hl).2]
  exact ⟨rfl, l.owner, (findClient_eq_ok_iff table).mpr ⟨l, hl, rfl, rfl⟩⟩

theorem ServerInv.found {connection : Nat} (h : s.table.findClient client = .ok connection) :
    client.slotIndex < s.table.connectionCapacity ∧ (s.table.clients client.slotIndex).live = true ∧
      (s.table.clients client.slotIndex).lease = client := by
  obtain ⟨lent, issued, table, -⟩ := inv.table
  obtain ⟨l, hl, rfl, -⟩ := (findClient_eq_ok_iff table).mp h
  obtain ⟨free, hpool⟩ := table.pool
  refine ⟨?_, table.live l hl⟩
  rw [← table.capacity, hpool.capacity]
  exact ((hpool.storage.current _).mp (mem_map_of_mem hl)).index

theorem ServerInv.relink {ys : List UInt64} (h : Relinked s s')
    (schedule : ScheduleInv s' ys) : ServerInv s' ys := by
  obtain ⟨_, _, _, _, rfl⟩ := h
  exact { inv with schedule := schedule }

theorem ServerInv.append (hi : i < s.table.connectionCapacity) (hlive : (s.table.clients i).live = true) :
    ∃ s', s.queueAppend i = (.ok, s') ∧ Relinked s s' ∧ ServerInv s' (if i ∈ xs then xs else xs ++ [i]) := by
  obtain ⟨s', happend, hrelinked, hinv⟩ := queueAppend_spec inv.schedule hi hlive
  exact ⟨s', happend, hrelinked, inv.relink hrelinked hinv⟩

theorem ServerInv.behind {ys : List UInt64} (same : SameServer s s')
    (table : ∃ lent issued, ClientTableInv s'.table lent issued ∧ ∀ l ∈ lent, l.owner < s.created)
    (schedule : ScheduleInv s' ys) : ServerInv s' ys where
  table := same.created ▸ table
  schedule := schedule
  shutdown := by
    rw [same.shutdownNextSlot, same.capacity]
    exact inv.shutdown
  close := by
    rw [same.closeNextSlot, same.capacity]
    exact inv.close

/-- **A release keeps the server**: the client is out of the queue, or it is there as before. -/
theorem ServerInv.release (client : Lease) (detached : Result) (closeFails : Bool) :
    let o := s.releaseClient client detached closeFails
    SameServer s o.2.2 ∧ SameSlots client.slotIndex s o.2.2 ∧
      ServerInv o.2.2 (if o.2.1 then xs.erase client.slotIndex else xs) ∧
      (o.2.1 = false →
        (o.2.2.table.clients client.slotIndex).live = (s.table.clients client.slotIndex).live) := by
  intro o
  obtain ⟨lent, issued, table, howners⟩ := inv.table
  obtain ⟨-, htable, hreleased⟩ := releaseClient_spec inv.schedule table client detached closeFails
  change Released s xs client.slotIndex o at hreleased
  have hlent : ∃ lent issued, ClientTableInv o.2.2.table lent issued ∧ ∀ l ∈ lent, l.owner < s.created := by
    have hleft := releaseClient_cases table client detached closeFails
    rw [show o.2.2.table = _ from htable]
    generalize s.table.releaseClient client detached closeFails = left at hleft ⊢
    cases hleft with
    | nobody table' => exact ⟨lent, issued, table', howners⟩
    | @client r t' l before after split held table' =>
      exact ⟨before ++ after, issued, table', fun m hm =>
        howners m (split ▸ ((sublist_cons_self l after).append_left before).subset hm)⟩
  clear_value o
  cases hreleased with
  | kept inv' same others live lease => exact ⟨same, others, inv.behind same hlent inv', fun _ => live⟩
  | gone inv' same others => exact ⟨same, others, inv.behind same hlent inv', nofun⟩

theorem ServerInv.connection (connection : Nat) (closeState : CloseState) (callbackActive : Bool) :
    ServerInv { s with table := s.table.proceed connection closeState callbackActive } xs := by
  obtain ⟨lent, issued, table, howners⟩ := inv.table
  exact ⟨⟨lent, issued, clientTableInv_proceed table connection closeState callbackActive, howners⟩,
    inv.schedule.setTable inv.schedule.accounts inv.schedule.live, inv.shutdown, inv.close⟩

theorem proceed_spec (client : Lease) (closeState : CloseState) :
    ServerInv (s.proceed client closeState) xs ∧ SameServer s (s.proceed client closeState) ∧
      (s.proceed client closeState).table.clients = s.table.clients := by
  unfold proceed
  split
  · exact ⟨inv, .refl s, rfl⟩
  · exact ⟨inv.connection _ _ _, ⟨rfl, rfl, rfl, rfl, rfl, rfl, rfl, rfl⟩, rfl⟩

end

theorem SameSlots.trans {s'' : TcpServer} (h : SameSlots i s s') (h' : SameSlots i s' s'') : SameSlots i s s'' :=
  fun j hj => (h' j hj).trans (h j hj)

theorem TurnSpec.after {o : TurnOutcome} {served : Served} (h : TurnSpec s' rest i client o served)
    (same : SameServer s s') (others : SameSlots i s s') : TurnSpec s rest i client o served :=
  { h with same := same.trans h.same, others := others.trans h.others }

/-- A turn that was stopped: its client stays out of the queue. -/
theorem ClientTurn.requeued_of_stopped (h : turn.outcome ≠ .ok) : turn.requeued = false := by
  rw [ClientTurn.requeued, decide_eq_false h]
  rfl

theorem turnSpec_stopped {o : TurnOutcome} {rc : Result} {stage : TcpRoundStage} (hrc : turn.outcome = rc)
    (hstopped : rc ≠ .ok) (hclient : turn.client = client) (htold : turn.told = o.tells) (hstage : stage ≠ .queue)
    (same : SameServer s s') (others : SameSlots i s s') (inv : ServerInv s' rest) :
    TurnSpec s rest i client o ⟨rc, stage, some turn, false, s'⟩ :=
  ⟨⟨turn, rfl, hclient, htold, hrc.symm, (ClientTurn.requeued_of_stopped (hrc ▸ hstopped)).symm⟩, hstage, same,
    others, inv⟩

theorem requeueTurn_spec (inv : ServerInv s rest) (hi : i < s.table.connectionCapacity)
    (hlive : (s.table.clients i).live = true) (hout : i ∉ rest) {o : TurnOutcome} (well : turn.Well client o) :
    TurnSpec s rest i client o (s.requeueTurn i turn o) := by
  have houtcome : ∀ requeued, { turn with closeRequeued := requeued }.outcome = .ok := fun requeued => by
    simp [ClientTurn.outcome, well.result, well.close, well.release]
  rw [requeueTurn]
  split
  · rename_i hagain
    obtain ⟨s', happend, hrelinked, hinv⟩ := inv.append hi hlive
    rw [if_neg hout] at hinv
    rw [happend]
    refine ⟨⟨_, rfl, well.client, well.told, (houtcome _).symm, ?_⟩, by simp, hrelinked.same,
      fun j _ => by rw [hrelinked.table], hinv⟩
    rw [ClientTurn.requeued, houtcome]
    simpa [well.release] using hagain.symm
  · rename_i hagain
    refine ⟨⟨turn, rfl, well.client, well.told, (houtcome turn.closeRequeued).symm, ?_⟩, by simp, .refl s,
      fun _ _ => rfl, inv⟩
    rw [Bool.or_eq_true, not_or, Bool.not_eq_true, Bool.not_eq_true] at hagain
    simp [ClientTurn.requeued, hagain.1, well.close]

theorem finishTurn_spec (inv : ServerInv s rest) (hi : i < s.table.connectionCapacity)
    (hlive : (s.table.clients i).live = true) (hout : i ∉ rest) (hslot : client.slotIndex = i)
    {o : TurnOutcome} (well : turn.Well client o) : TurnSpec s rest i client o (s.finishTurn i turn o) := by
  unfold finishTurn
  split
  · obtain ⟨same, others, hinv, hkept⟩ := inv.release client o.detached o.closeFails
    rw [hslot] at others hinv hkept
    rw [erase_of_not_mem hout, ite_self] at hinv
    rw [well.client]
    generalize s.releaseClient client o.detached o.closeFails = left at same others hinv hkept ⊢
    have houtcome : { turn with
        client := client, releaseAttempted := true, releaseResult := left.1, released := left.2.1 }.outcome = left.1 := by
      simp [ClientTurn.outcome, well.result, well.close]
    dsimp only
    split
    · rename_i hstopped
      exact turnSpec_stopped houtcome hstopped rfl well.told (by simp) same others hinv
    rename_i hresult
    rw [not_not] at hresult
    split
    · rename_i hgone
      refine ⟨⟨_, rfl, rfl, well.told, (houtcome.trans hresult).symm, ?_⟩, by simp, same, others, hinv⟩
      simp [ClientTurn.requeued, hgone]
    · rename_i hthere
      rw [Bool.not_eq_true] at hthere
      refine (requeueTurn_spec hinv (same.capacity ▸ hi) ((hkept hthere).trans hlive) hout ?_).after same others
      exact ⟨rfl, well.told, well.result, well.close, hresult, hthere⟩
  · exact requeueTurn_spec inv hi hlive hout well

theorem driveTurn_spec (inv : ServerInv s rest) (hi : i < s.table.connectionCapacity)
    (hlive : (s.table.clients i).live = true) (hout : i ∉ rest) (hslot : client.slotIndex = i)
    (events : UInt32) (o : TurnOutcome) : TurnSpec s rest i client o (s.driveTurn i client events o) := by
  obtain ⟨hinv, hsame, hclients⟩ := proceed_spec inv client o.closeState
  have hothers : SameSlots i s (s.proceed client o.closeState) := fun j _ => by rw [hclients]
  unfold driveTurn
  split
  · rename_i hresult
    exact turnSpec_stopped (by rw [ClientTurn.outcome, if_pos hresult]) hresult rfl rfl (by simp) hsame hothers hinv
  rename_i hresult
  rw [not_not] at hresult
  by_cases hclose : (if (s.proceed client o.closeState).autoClosePolicy then o.closeResult else .ok) ≠ .ok
  · rw [if_pos hclose]
    exact turnSpec_stopped (by rw [ClientTurn.outcome, if_neg (not_not.mpr hresult), if_pos hclose]) hclose rfl rfl
      (by simp) hsame hothers hinv
  · rw [if_neg hclose]
    exact (finishTurn_spec hinv (hsame.capacity ▸ hi) (by rw [hclients]; exact hlive) hout hslot
      ⟨rfl, rfl, hresult, ⟨not_not.mp hclose, rfl⟩, rfl, rfl⟩).after hsame hothers

theorem serveHead_spec (inv : ServerInv s (i :: rest)) (o : TurnOutcome) :
    TurnSpec s rest i (s.table.clients i).lease o (s.serveHead o) := by
  obtain ⟨hi, hlive⟩ := inv.schedule.live i (mem_cons_self ..)
  have hhead : s.queueHead = some i := inv.schedule.queue.next_none
  have hout := (nodup_cons.mp inv.schedule.queue.nodup).1
  obtain ⟨hslot, -⟩ := inv.lease hi hlive
  obtain ⟨s', hremove, hrelinked, hinv⟩ := queueRemove_spec inv.schedule hi
  rw [erase_cons_head] at hinv
  unfold serveHead
  rw [hhead]
  dsimp only
  rw [if_neg (UInt64.not_le.mpr hi), hremove]
  refine (driveTurn_spec (inv.relink hrelinked hinv) ?_ ?_ hout hslot _ o).after hrelinked.same
    fun j _ => by rw [hrelinked.table]
  · rw [hrelinked.table]
    exact hi
  · rw [hrelinked.table]
    exact hlive

/-- The slots of the clients that go back into the queue. -/
def requeuedSlots (turns : List ClientTurn) : List UInt64 :=
  (turns.filter ClientTurn.requeued).map (·.client.slotIndex)

/-- All turns but the last one went well, and the last one says what the round comes to. -/
def EndsWith (turns : List ClientTurn) (result : Result) : Prop :=
  (∀ turn ∈ turns.dropLast, turn.outcome = .ok) ∧ result = (turns.getLast?.map ClientTurn.outcome).getD .ok

theorem endsWith_cons {turns : List ClientTurn} {result : Result} (h : EndsWith turns result)
    (hok : turn.outcome = .ok) : EndsWith (turn :: turns) result := by
  cases turns with
  | nil => exact ⟨fun _ hmem => absurd hmem not_mem_nil, h.2.trans hok.symm⟩
  | cons next turns =>
    refine ⟨?_, ?_⟩
    · rw [dropLast_cons_cons]
      exact forall_mem_cons.mpr ⟨hok, h.1⟩
    · rw [getLast?_cons_cons]
      exact h.2

/-- What the loop of a round does to the queue: so many at the front have their turn, and some of them go behind
    the others. -/
structure TurnsSpec (s : TcpServer) (pending back : List UInt64) (turns : Nat → TurnOutcome) (k left m : Nat)
    (o : Result × TcpRoundStage × List ClientTurn × TcpServer) : Prop where
  most : m ≤ left
  clients : o.2.2.1.map (·.client) = (pending.take m).map fun i => (s.table.clients i).lease
  told : o.2.2.1.map ClientTurn.told = (List.range' k m).map fun n => (turns n).tells
  ends : EndsWith o.2.2.1 o.1
  all : o.1 = .ok → m = left
  stage : o.2.1 ≠ .queue
  inv : ServerInv o.2.2.2 (pending.drop m ++ back ++ requeuedSlots o.2.2.1)

/-- **A round takes its clients from the front of the queue**, in order; those with more to do come back
    behind the others. -/
theorem serveTurns_spec (turns : Nat → TurnOutcome) (left : Nat) :
    ∀ (k : Nat) {s : TcpServer} {pending back : List UInt64}, ServerInv s (pending ++ back) →
      left ≤ pending.length → ∃ m, TurnsSpec s pending back turns k left m (serveTurns turns left k s) := by
  induction left with
  | zero =>
    intro k s pending back inv _
    refine ⟨0, Nat.le_refl 0, rfl, rfl, ⟨fun _ h => absurd h not_mem_nil, rfl⟩, fun _ => rfl, by simp [serveTurns], ?_⟩
    rw [serveTurns, requeuedSlots, filter_nil, map_nil, List.append_nil]
    exact inv
  | succ left ih =>
    intro k s pending back inv hleft
    cases pending with
    | nil => exact absurd hleft (Nat.not_succ_le_zero _)
    | cons i rest =>
      obtain ⟨hi, hlive⟩ := inv.schedule.live i (mem_cons_self ..)
      obtain ⟨hslot, -⟩ := inv.lease hi hlive
      obtain ⟨⟨turn, hturn, hclient, htold, houtcome, hrequeued⟩, hstage, -, hothers, hinv⟩ :=
        serveHead_spec inv (turns k)
      rw [hrequeued] at hinv
      unfold serveTurns
      dsimp only
      rw [hturn, Option.toList_some]
      by_cases hresult : (s.serveHead (turns k)).result ≠ .ok
      · rw [if_pos hresult]
        have hstopped := ClientTurn.requeued_of_stopped (houtcome ▸ hresult)
        rw [hstopped] at hinv
        refine ⟨1, by omega, by simp [hclient], by simp [htold], ⟨fun _ h => absurd h not_mem_nil, houtcome⟩,
          fun h => absurd h hresult, hstage, ?_⟩
        rw [requeuedSlots, filter_cons_of_neg (by rw [hstopped]; exact Bool.false_ne_true), filter_nil, map_nil,
          List.append_nil]
        exact hinv
      · rw [if_neg hresult]
        rw [not_not] at hresult
        have hqueue : ServerInv (s.serveHead (turns k)).server (rest ++ (back ++ requeuedSlots [turn])) := by
          rw [requeuedSlots, filter_singleton]
          split at hinv
          · rename_i h
            rw [h, ← append_assoc]
            simpa [hclient, hslot] using hinv
          · rename_i h
            rw [Bool.eq_false_iff.mpr h]
            simpa using hinv
        obtain ⟨m, hm⟩ := ih (k + 1) hqueue (Nat.le_of_succ_le_succ hleft)
        refine ⟨m + 1, Nat.succ_le_succ hm.most, ?_, ?_, endsWith_cons hm.ends (houtcome.symm.trans hresult),
          fun h => congrArg (· + 1) (hm.all h), hm.stage, ?_⟩
        · have hnodup := nodup_cons.mp inv.schedule.queue.nodup
          rw [singleton_append, map_cons, take_succ_cons, map_cons, hm.clients, hclient]
          refine congrArg _ (map_congr_left fun j hj => ?_)
          rw [hothers j]
          rintro rfl
          exact hnodup.1 (mem_append_left _ (mem_of_mem_take hj))
        · rw [singleton_append, map_cons, hm.told, htold, range'_succ, map_cons]
        · have hrest := hm.inv
          rw [drop_succ_cons]
          rw [requeuedSlots, filter_append, map_append]
          simpa only [requeuedSlots, append_assoc] using hrest

section

variable (inv : ServerInv s xs)
include inv

theorem ServerInv.setMark (i : UInt64) (mark : QueueMark) (hprev : mark.prev = (s.marks i).prev)
    (hnext : mark.next = (s.marks i).next) (hqueued : mark.queued = (s.marks i).queued) :
    ServerInv (s.setMark i mark) xs := by
  refine inv.relink (relinked_setMark s i mark) (inv.schedule.relink (relinked_setMark s i mark) ?_
    inv.schedule.count (fun j => ?_) inv.schedule.live)
  · rw [links_setMark s i mark hprev hnext]
    exact inv.schedule.queue
  · rw [← inv.schedule.queued]
    simp only [TcpServer.setMark, update_apply]
    split
    · rename_i h
      rw [h, hqueued]
    · rfl

theorem ServerInv.setFault (fault : Bool) : ServerInv { s with queueFault := fault } xs :=
  { inv with schedule := { inv.schedule with } }

omit inv in
/-- An attached client that something known happened to. -/
def Known (clients : UInt64 → ClientSlot) (n : UInt64 × UInt32) : Bool :=
  (clients n.1).bound && n.2 &&& ~~~knownEvents == 0

/-- An attached client that something unknown happened to. -/
def Unknown (clients : UInt64 → ClientSlot) (n : UInt64 × UInt32) : Bool :=
  (clients n.1).bound && n.2 &&& ~~~knownEvents != 0

/-- The clients that callbacks put behind a queue, in the order of the callbacks: those that do not wait yet. -/
def arrivals (clients : UInt64 → ClientSlot) : List UInt64 → List (UInt64 × UInt32) → List UInt64
  | _, [] => []
  | xs, n :: notified =>
    if Known clients n = true ∧ n.1 ∉ xs then n.1 :: arrivals clients (xs ++ [n.1]) notified
    else arrivals clients xs notified

/-- **A callback puts its client behind the others**; unknown events, and only these, are a fault. -/
theorem notify_spec (i : UInt64) (events : UInt32) :
    ServerInv (s.notify i events) (xs ++ arrivals s.table.clients xs [(i, events)]) ∧
      (s.notify i events).table = s.table ∧
      (s.notify i events).queueFault = (s.queueFault || Unknown s.table.clients (i, events)) := by
  unfold notify
  split
  · rename_i hbound
    have hlive := inv.schedule.accounts.bound i hbound
    have hi := inv.schedule.accounts.inside i hlive
    rw [clientObserved]
    have hmark := inv.setMark i { s.marks i with lastEvents := events } rfl rfl rfl
    split
    · rename_i hunknown
      refine ⟨?_, rfl, by simp [Unknown, hbound, hunknown]⟩
      rw [arrivals, if_neg (by simp [Known, hunknown]), arrivals, List.append_nil]
      exact hmark.setFault true
    · rename_i hknown
      rw [not_not] at hknown
      rw [show ((s.setMark i { s.marks i with lastEvents := events }).table.clients i).lease.slotIndex = i
        from (inv.lease hi hlive).1]
      obtain ⟨s', happend, hrelinked, hinv⟩ := hmark.append hi hlive
      rw [happend]
      have hfault : s'.queueFault = (s.queueFault || Unknown s.table.clients (i, events)) := by
        rw [hrelinked.same.fault]
        simp [Unknown, hknown, setMark]
      refine ⟨?_, hrelinked.table, hfault⟩
      have hqueue : xs ++ arrivals s.table.clients xs [(i, events)] = if i ∈ xs then xs else xs ++ [i] := by
        by_cases hmem : i ∈ xs <;> simp [arrivals, Known, hbound, hknown, hmem]
      rw [hqueue]
      exact hinv.setMark i _ rfl rfl rfl
  · rename_i hfree
    refine ⟨?_, rfl, by simp [Unknown, hfree]⟩
    rw [arrivals, if_neg (by simp [Known, hfree]), arrivals, List.append_nil]
    exact inv

omit inv in
theorem notified_spec (notified : List (UInt64 × UInt32)) :
    ∀ {s : TcpServer} {xs : List UInt64}, ServerInv s xs →
      ServerInv (notified.foldl (fun s n => s.notify n.1 n.2) s) (xs ++ arrivals s.table.clients xs notified) ∧
        (notified.foldl (fun s n => s.notify n.1 n.2) s).table = s.table ∧
        (notified.foldl (fun s n => s.notify n.1 n.2) s).queueFault =
          (s.queueFault || notified.any (Unknown s.table.clients)) := by
  induction notified with
  | nil =>
    intro s xs inv
    rw [arrivals, List.append_nil]
    exact ⟨inv, rfl, (Bool.or_false _).symm⟩
  | cons n notified ih =>
    intro s xs inv
    obtain ⟨hfirst, htable, hfault⟩ := notify_spec inv n.1 n.2
    obtain ⟨hinv, htable', hfault'⟩ := ih hfirst
    rw [foldl_cons, hfault', hfault, htable, any_cons, Bool.or_assoc]
    refine ⟨?_, htable'.trans htable, rfl⟩
    have hqueue : xs ++ arrivals s.table.clients xs (n :: notified) = xs ++ arrivals s.table.clients xs [n] ++
        arrivals s.table.clients (xs ++ arrivals s.table.clients xs [n]) notified := by
      simp only [arrivals]
      split <;> simp
    rw [hqueue, ← htable]
    exact htable ▸ hinv

theorem ServerInv.leases_nodup {ys : List UInt64} (hnodup : ys.Nodup)
    (hys : ∀ i ∈ ys, i < s.table.connectionCapacity ∧ (s.table.clients i).live = true) :
    (ys.map fun i => (s.table.clients i).lease).Nodup := by
  refine List.Nodup.of_map (fun l : Lease => l.slotIndex) ?_
  rw [map_map]
  have hsame : ys.map ((fun l : Lease => l.slotIndex) ∘ fun i => (s.table.clients i).lease) = ys := by
    refine (map_congr_left fun i hi => ?_).trans (map_id ys)
    exact (inv.lease (hys i hi).1 (hys i hi).2).1
  rw [hsame]
  exact hnodup

omit inv in
/-- A round gets to its wait: the arguments are right, and the server serves. -/
def RoundCall.Enters (c : RoundCall) (s : TcpServer) : Prop :=
  -1 ≤ c.timeoutMs ∧ (1 ≤ c.maxClients ∧ c.maxClients ≤ maxConnections) ∧
    (1 ≤ c.turnCapacity ∧ c.turnCapacity ≤ maxConnections) ∧ c.drivable = true ∧
    (c.fromServe = true ∨ s.table.stopRequested = false)

instance (c : RoundCall) (s : TcpServer) : Decidable (c.Enters s) := inferInstanceAs (Decidable (_ ∧ _))

/-- A round gets to its turns: the wait went well, and brought nothing unknown. -/
def RoundCall.Serves (c : RoundCall) (s : TcpServer) : Prop :=
  c.Enters s ∧ c.wait = .ok ∧ ∀ n ∈ c.notified, Unknown s.table.clients n = false

/-- The queue behind the wait of a round. -/
def TcpServer.waiting (s : TcpServer) (xs : List UInt64) (c : RoundCall) : List UInt64 :=
  if c.Enters s then xs ++ arrivals s.table.clients xs c.notified else xs

/-- What a round does: it serves those at the front of the queue, each once and in order, as many as its budgets
    allow, until a turn is stopped. -/
structure RoundServes (s : TcpServer) (xs : List UInt64) (c : RoundCall) (o : RoundOutcome) : Prop where
  refused : ¬ c.Enters s → o.server = s ∧ o.stage = .none
  counted : c.Enters s → o.queuedBeforeWait = xs.length ∧
    (c.wait = .ok → o.queuedAfterWait = (s.waiting xs c).length)
  waited : c.Enters s → c.wait ≠ .ok → o.result = c.wait ∧ o.stage = .wait
  fault : o.stage = .queue ↔ c.Enters s ∧ c.wait = .ok ∧ ∃ n ∈ c.notified, Unknown s.table.clients n = true
  idle : ¬ c.Serves s → o.turns = []
  all : c.Serves s → EndsWith o.turns o.result ∧ (o.result = .ok →
    o.turns.length = min (min (s.waiting xs c).length c.maxClients) c.turnCapacity)
  limit : o.turns.length ≤ min (min (s.waiting xs c).length c.maxClients) c.turnCapacity
  served : o.turns.map (·.client) =
    ((s.waiting xs c).take o.turns.length).map fun i => (s.table.clients i).lease
  told : o.turns.map ClientTurn.told = (List.range o.turns.length).map fun n => (c.turns n).tells
  once : (o.turns.map (·.client)).Nodup

/-- With it, the queue behind the round. -/
structure RoundSpec (s : TcpServer) (xs : List UInt64) (c : RoundCall) (o : RoundOutcome) : Prop
    extends RoundServes s xs c o where
  inv : ServerInv o.server ((s.waiting xs c).drop o.turns.length ++ requeuedSlots o.turns)

theorem runRound_spec (c : RoundCall) : RoundSpec s xs c (s.runRound c) := by
  have refused : ∀ (r : Result), ¬ c.Enters s → RoundSpec s xs c ⟨r, .none, [], 0, 0, 0, 0, s⟩ := by
    intro r hout
    have hqueue : s.waiting xs c = xs := if_neg hout
    refine ⟨⟨fun _ => ⟨rfl, rfl⟩, fun h => absurd h hout, fun h => absurd h hout,
      iff_of_false (fun h => by cases h) fun h => hout h.1, fun _ => rfl, fun h => absurd h.1 hout,
      Nat.zero_le _, rfl, rfl, nodup_nil⟩, ?_⟩
    rw [hqueue]
    exact (List.append_nil xs).symm ▸ inv
  unfold runRound
  dsimp only
  split
  · rename_i htimeout
    exact refused _ fun h => absurd h.1 (by omega)
  split
  · rename_i hbudget
    refine refused _ fun h => ?_
    obtain ⟨-, hclients, hturns, hdrivable, -⟩ := h
    rw [hdrivable] at hbudget
    simp only [Bool.true_eq_false, or_false] at hbudget
    omega
  rename_i htimeout hbudget
  rw [if_neg (by simp [queueValid_eq inv.schedule])]
  split
  · rename_i hstopped
    refine refused _ fun h => ?_
    rcases h.2.2.2.2 with h | h
    · rw [hstopped.1] at h
      cases h
    · rw [h] at hstopped
      cases hstopped.2
  rename_i hserving
  have henters : c.Enters s := by
    simp only [not_or, not_lt, Bool.not_eq_false] at hbudget
    refine ⟨by omega, by omega, by omega, hbudget.2.2.2.2, ?_⟩
    simpa [or_iff_not_imp_left] using hserving
  have hqueue : s.waiting xs c = xs ++ arrivals s.table.clients xs c.notified := if_pos henters
  obtain ⟨hinv, htable, hfault⟩ := notified_spec c.notified (inv.setFault false)
  rw [Bool.false_or] at hfault
  generalize c.notified.foldl (fun s n => s.notify n.1 n.2) { s with queueFault := false } = s'
    at hinv htable hfault ⊢
  rw [← show s.waiting xs c = _ from hqueue] at hinv
  have hcount : s'.queueCount = (s.waiting xs c).length := hinv.schedule.count
  have idle : ∀ {o : RoundOutcome}, o.turns = [] → o.server = s' → o.queuedBeforeWait = s.queueCount →
      (c.wait = .ok → o.queuedAfterWait = s'.queueCount) → (c.wait ≠ .ok → o.result = c.wait ∧ o.stage = .wait) →
      (o.stage = .queue ↔ c.Enters s ∧ c.wait = .ok ∧ ∃ n ∈ c.notified, Unknown s.table.clients n = true) →
      ¬ c.Serves s → RoundSpec s xs c o := by
    intro o hturns hserver hbefore hafter hwait hstage hidle
    refine ⟨⟨fun h => absurd henters h, fun _ => ⟨hbefore.trans inv.schedule.count, fun h =>
      (hafter h).trans hcount⟩, fun _ => hwait, hstage, fun _ => hturns, fun h => absurd h hidle, by simp [hturns],
      by simp [hturns], by simp [hturns], by simp [hturns]⟩, ?_⟩
    rw [hturns, hserver]
    exact (List.append_nil (s.waiting xs c)).symm ▸ hinv
  split
  · rename_i hwait
    exact idle rfl rfl rfl (fun h => absurd h hwait) (fun _ => ⟨rfl, rfl⟩)
      (iff_of_false (fun h => by cases h) fun h => hwait h.2.1) fun h => hwait h.2.1
  rename_i hwait
  rw [not_not] at hwait
  have hunknown : s'.queueFault = true ↔ ∃ n ∈ c.notified, Unknown s.table.clients n = true := by
    rw [hfault]
    exact any_eq_true
  split
  · rename_i hbad
    have hunk := hunknown.mp (hbad.resolve_right (by simp [queueValid_eq hinv.schedule]))
    refine idle rfl rfl rfl (fun _ => rfl) (fun h => absurd hwait h) (iff_of_true rfl ⟨henters, hwait, hunk⟩) fun h => ?_
    obtain ⟨n, hn, hyes⟩ := hunk
    exact Bool.noConfusion (hyes.symm.trans (h.2.2 n hn))
  · rename_i hgood
    have hknown := fun h => hgood (.inl (hunknown.mpr h))
    have hserves : c.Serves s := ⟨henters, hwait, fun n hn => Bool.eq_false_iff.mpr fun h => hknown ⟨n, hn, h⟩⟩
    obtain ⟨m, hm⟩ := serveTurns_spec c.turns (min (min s'.queueCount c.maxClients) c.turnCapacity) 0
      (show ServerInv s' (s.waiting xs c ++ []) by rw [List.append_nil]; exact hinv) (by omega)
    have hlength : (serveTurns c.turns
        (min (min s'.queueCount c.maxClients) c.turnCapacity) 0 s').2.2.1.length = m := by
      have htold := congrArg List.length hm.told
      rwa [length_map, length_map, length_range'] at htold
    have hmost := hm.most
    refine ⟨⟨fun h => absurd henters h, fun _ => ⟨inv.schedule.count, fun _ => hcount⟩, fun _ h => absurd hwait h,
      iff_of_false hm.stage fun h => hknown h.2.2, fun h => absurd hserves h, fun _ => ⟨hm.ends, fun hok => ?_⟩,
      ?_, ?_, ?_, ?_⟩, ?_⟩
    · rw [← hcount]
      exact hlength.trans (hm.all hok)
    · dsimp only
      omega
    · dsimp only
      rw [hlength, hm.clients, htable]
    · dsimp only
      rw [hlength, hm.told, List.range_eq_range']
    · dsimp only
      rw [hm.clients]
      exact hinv.leases_nodup (hinv.schedule.queue.nodup.sublist (take_sublist _ _))
        fun i hi => hinv.schedule.live i (mem_of_mem_take hi)
    · have hleft := hm.inv
      rw [List.append_nil] at hleft
      dsimp only
      rw [hlength]
      exact hleft

/-- The queue behind a call of `schedule_client`. -/
def TcpServer.scheduled (s : TcpServer) (xs : List UInt64) (client : Lease) : List UInt64 :=
  match s.table.findClient client with
  | .error _ => xs
  | .ok _ => if client.slotIndex ∈ xs then xs else xs ++ [client.slotIndex]

theorem scheduleClient_spec (client : Lease) :
    ServerInv (s.scheduleClient client).2 (s.scheduled xs client) ∧
      (s.scheduleClient client).1 = match s.table.findClient client with
        | .error e => e.val
        | .ok _ => .ok := by
  unfold scheduleClient scheduled
  cases hfind : s.table.findClient client with
  | error e => exact ⟨inv, rfl⟩
  | ok connection =>
    obtain ⟨hi, hlive, -⟩ := inv.found hfind
    obtain ⟨s', happend, -, hinv⟩ := inv.append hi hlive
    rw [happend]
    exact ⟨hinv, rfl⟩

end

end Turns

/-! ## 5. Clients that come -/

/-- Slots, counters and limits of two tables are the same. -/
structure SameAccounts (t t' : ClientTable Nat) : Prop where
  capacity : t'.connectionCapacity = t.connectionCapacity
  clientCount : t'.clientCount = t.clientCount
  registeredClients : t'.registeredClients = t.registeredClients
  bufferBytes : t'.bufferBytes = t.bufferBytes

/-- What an admission does to the slots: nothing, or an idle slot is written and emptied again, or a client is
    in it. -/
inductive AdmitChange (t : ClientTable Nat) : Option UInt64 → Result × Option Lease × ClientTable Nat → Prop
  | refused {r : Result} {t' : ClientTable Nat} (same : SameAccounts t t') (clients : t'.clients = t.clients) :
      AdmitChange t none (r, none, t')
  | undone {r : Result} {t' : ClientTable Nat} {i : UInt64} (inside : i < t.connectionCapacity)
      (idle : (t.clients i).live = false) (same : SameAccounts t t')
      (clients : t'.clients = update t.clients i .empty) : AdmitChange t (some i) (r, none, t')
  | published {r : Result} {t' : ClientTable Nat} {lease : Lease} {bytes : Nat}
      (inside : lease.slotIndex < t.connectionCapacity) (idle : (t.clients lease.slotIndex).live = false)
      (capacity : t'.connectionCapacity = t.connectionCapacity) (clientCount : t'.clientCount = t.clientCount + 1)
      (registeredClients : t'.registeredClients = t.registeredClients + 1)
      (bufferBytes : t'.bufferBytes = t.bufferBytes + bytes)
      (clients : t'.clients = update t.clients lease.slotIndex ⟨lease, bytes, true, true⟩) :
      AdmitChange t (some lease.slotIndex) (r, some lease, t')

section Coming

variable {s : TcpServer} {xs : List UInt64} {t : ClientTable Nat} {lent : List (Lent Nat)}
  {issued : List Lease}

theorem admitClients_change (inv : ClientTableInv t lent issued) (connection readCapacity writeCapacity : Nat)
    (attach : Result) (closeFails : Bool) :
    AdmitChange t (t.slotWritten connection readCapacity writeCapacity)
      (t.admitClients connection readCapacity writeCapacity attach closeFails) := by
  have refused : ∀ r : Result, AdmitChange t none (r, none, t) := fun r => .refused ⟨rfl, rfl, rfl, rfl⟩ rfl
  obtain ⟨free, hpool⟩ := inv.pool
  unfold ClientTable.admitClients ClientTable.slotWritten
  cases checkedSizeAdd readCapacity writeCapacity with
  | error e => exact refused _
  | ok pairBytes =>
    dsimp only
    by_cases hoptions : readCapacity = 0 ∨ writeCapacity = 0 ∨ pairBytes > t.maxBufferBytes
    · rw [if_pos hoptions, if_pos hoptions]
      exact refused _
    · rw [if_neg hoptions, if_neg hoptions]
      by_cases hcount : t.clientCount = t.connectionCapacity.toNat
      · rw [if_pos hcount, if_pos hcount]
        exact refused _
      · rw [if_neg hcount, if_neg hcount]
        by_cases hbytes : pairBytes > t.maxBufferBytes - t.bufferBytes
        · rw [if_pos hbytes, if_pos hbytes]
          exact refused _
        · rw [if_neg hbytes, if_neg hbytes, update_self]
          have hadopt := adopt_cases hpool connection
            (.ok ⟨readCapacity, writeCapacity, pairBytes, false, false, .open⟩) (.ok ())
          generalize t.pool.adopt connection (.ok ⟨readCapacity, writeCapacity, pairBytes, false, false, .open⟩)
            (.ok ()) = o at hadopt ⊢
          cases hadopt with
          | refused _ => exact .refused ⟨rfl, rfl, rfl, rfl⟩ rfl
          | @taken lease p' info free' told _ _ new shape same inv' =>
            obtain rfl := Except.ok.inj told
            obtain ⟨hindex, hempty, hlookup, hlive, -⟩ := slot_taken inv shape inv'
            have hinside : ¬(lease.slotIndex ≥ t.connectionCapacity ∨ leaseEmpty lease = true) := by
              simp [hempty, hindex]
            have hidle : ¬(t.clients lease.slotIndex).live = true := by
              simp [hlive]
            dsimp only
            rw [if_neg hinside, if_neg hinside, hlookup]
            dsimp only
            rw [if_neg hidle, if_neg hidle]
            split
            · obtain ⟨p'', -, heq, -, -⟩ := cleanPending_eq (t := { t with
                pool := p'
                connections := update t.connections connection
                  ⟨readCapacity, writeCapacity, pairBytes, false, false, .open⟩
                clients := update t.clients lease.slotIndex ⟨lease, pairBytes, false, false⟩ }) connection
                inv' (by simp) closeFails
              rw [heq]
              exact .undone hindex hlive ⟨rfl, rfl, rfl, rfl⟩ (update_idem ..)
            · refine .published hindex hlive rfl rfl rfl rfl ?_
              exact update_idem ..

theorem ScheduleInv.same (inv : ScheduleInv s xs) {t' : ClientTable Nat} (same : SameAccounts s.table t')
    (clients : t'.clients = s.table.clients) : ScheduleInv { s with table := t' } xs := by
  refine inv.setTable ?_ fun j hj => ?_
  · rw [same.capacity, same.clientCount, same.registeredClients, same.bufferBytes, clients]
    exact inv.accounts
  · rw [same.capacity, clients]
    exact inv.live j hj

theorem ScheduleInv.idle_not_mem (inv : ScheduleInv s xs) {i : UInt64} (hidle : (s.table.clients i).live = false) :
    i ∉ xs := by
  intro hmem
  rw [(inv.live i hmem).2] at hidle
  cases hidle

theorem ScheduleInv.setCreated (inv : ScheduleInv s xs) (created : Nat) :
    ScheduleInv { s with created := created } xs :=
  { inv with }

/-- **A connection is published or it is not**: the queue is as it was. -/
theorem publish_spec (inv : ServerInv s xs) (readCapacity writeCapacity : Nat) (adopted attach : Result)
    (closeFails : Bool) : ServerInv (s.publish readCapacity writeCapacity adopted attach closeFails).2.2 xs := by
  obtain ⟨lent, issued, table, howners⟩ := inv.table
  by_cases hadopted : adopted ≠ .ok
  · rw [publish, if_pos hadopted]
    exact ⟨⟨lent, issued, table, fun l hl => Nat.lt_succ_of_lt (howners l hl)⟩, inv.schedule.setCreated _,
      inv.shutdown, inv.close⟩
  have hadmitted := admitClients_cases table (fresh_owner howners) readCapacity writeCapacity attach closeFails
  have hchange := admitClients_change table s.created readCapacity writeCapacity attach closeFails
  rw [publish, if_neg hadopted]
  generalize s.table.admitClients s.created readCapacity writeCapacity attach closeFails = o
    at hadmitted hchange ⊢
  have htable : ∃ lent issued, ClientTableInv o.2.2 lent issued ∧ ∀ l ∈ lent, l.owner < s.created + 1 := by
    cases hadmitted with
    | nobody inv' grown => exact ⟨lent, _, inv', fun l hl => Nat.lt_succ_of_lt (howners l hl)⟩
    | client _ _ inv' =>
      exact ⟨_, _, inv', forall_mem_cons.mpr
        ⟨Nat.lt_succ_self _, fun l hl => Nat.lt_succ_of_lt (howners l hl)⟩⟩
  generalize s.table.slotWritten s.created readCapacity writeCapacity = written at hchange ⊢
  cases hchange with
  | refused same clients =>
    exact ⟨htable, (inv.schedule.same same clients).setCreated _, same.capacity ▸ inv.shutdown,
      same.capacity ▸ inv.close⟩
  | @undone r t' i inside idle same clients =>
    have hout := inv.schedule.idle_not_mem idle
    refine ⟨htable, ((inv.schedule.clearMark hout).setTable ?_ fun j hj => ?_).setCreated _,
      same.capacity ▸ inv.shutdown, same.capacity ▸ inv.close⟩
    · rw [same.capacity, same.clientCount, same.registeredClients, same.bufferBytes, clients]
      exact inv.schedule.accounts.idle inside idle rfl rfl
    · have hne : j ≠ i := fun h => hout (h ▸ hj)
      rw [same.capacity, clients, update_of_ne hne]
      exact inv.schedule.live j hj
  | @published r t' lease bytes inside idle capacity clientCount registeredClients bufferBytes clients =>
    have hout := inv.schedule.idle_not_mem idle
    refine ⟨htable, ((inv.schedule.clearMark hout).setTable ?_ fun j hj => ?_).setCreated _,
      capacity ▸ inv.shutdown, capacity ▸ inv.close⟩
    · rw [capacity, clientCount, registeredClients, bufferBytes, clients]
      exact inv.schedule.accounts.publish inside idle lease bytes
    · have hne : j ≠ lease.slotIndex := fun h => hout (h ▸ hj)
      rw [capacity, clients, update_of_ne hne]
      exact inv.schedule.live j hj

theorem admitLoop_spec (c : AdmitCall) (pairBytes left : Nat) :
    ∀ (k : Nat) (info : AdmitInfo) (clients : List Lease) {s : TcpServer}, ServerInv s xs →
      ServerInv (admitLoop c pairBytes left k info clients s).server xs := by
  induction left with
  | zero =>
    intro k info clients s inv
    exact inv
  | succ left ih =>
    intro k info clients s inv
    have hpublished := publish_spec inv c.options.readCapacity c.options.writeCapacity (c.passes k).adopted
      (c.passes k).attach (c.passes k).closeFails
    unfold admitLoop
    dsimp only
    repeat' split
    all_goals try exact inv
    · rename_i heq
      rw [heq] at hpublished
      exact hpublished
    · rename_i heq
      rw [heq] at hpublished
      exact ih _ _ _ hpublished

theorem admitBatch_spec (inv : ServerInv s xs) (c : AdmitCall) : ServerInv (s.admitBatch c).server xs := by
  unfold admitBatch
  repeat' split
  all_goals try exact inv
  exact admitLoop_spec c _ _ _ _ _ inv

end Coming

/-! ## 6. Batches -/

/-- What the visit of a live slot keeps, with the lease of its row. -/
def VisitKeeps {ρ : Type} (lease : ρ → Lease) (visit : UInt64 → TcpServer → Result × ρ × TcpServer) : Prop :=
  ∀ {s : TcpServer} {xs : List UInt64} {i : UInt64}, ServerInv s xs → i < s.table.connectionCapacity →
    (s.table.clients i).live = true →
      (∃ ys, ServerInv (visit i s).2.2 ys) ∧ SameServer s (visit i s).2.2 ∧ SameSlots i s (visit i s).2.2 ∧
        lease (visit i s).2.1 = (s.table.clients i).lease

/-- How far the cursor has to go to a slot. -/
def slotsAhead (capacity index j : UInt64) : Nat :=
  if index.toNat ≤ j.toNat then j.toNat - index.toNat else capacity.toNat - index.toNat + j.toNat

section Batches

variable {s : TcpServer} {xs : List UInt64} {ρ : Type} {lease : ρ → Lease}
  {visit : UInt64 → TcpServer → Result × ρ × TcpServer} {index j capacity next : UInt64}

theorem slotsAhead_lt (hindex : index < capacity) (hj : j < capacity) :
    slotsAhead capacity index j < capacity.toNat := by
  have := lt_iff_toNat_lt.mp hindex
  have := lt_iff_toNat_lt.mp hj
  unfold slotsAhead
  split <;> omega

theorem cursor_next (hindex : index < capacity) :
    (if index + 1 = capacity then 0 else index + 1) < capacity ∧ ∀ {j : UInt64}, j < capacity → j ≠ index →
        slotsAhead capacity (if index + 1 = capacity then 0 else index + 1) j + 1 = slotsAhead capacity index j := by
  have hlt := lt_iff_toNat_lt.mp hindex
  have hsmall := capacity.toNat_lt
  have hsucc : (index + 1).toNat = index.toNat + 1 := by
    rw [UInt64.toNat_add]
    exact Nat.mod_eq_of_lt (by simp; omega)
  by_cases hend : index + 1 = capacity
  · rw [if_pos hend]
    have hcapacity : capacity.toNat = index.toNat + 1 := by rw [← hend, hsucc]
    refine ⟨lt_iff_toNat_lt.mpr (by simp; omega), fun {j} hj hne => ?_⟩
    have hne' : j.toNat ≠ index.toNat := fun h => hne (toNat_inj.mp h)
    have hjlt := lt_iff_toNat_lt.mp hj
    unfold slotsAhead
    rw [if_pos (by simp), if_neg (by omega)]
    simp
    omega
  · rw [if_neg hend]
    have hcapacity : capacity.toNat ≠ index.toNat + 1 := fun h => hend (toNat_inj.mp (hsucc.trans h.symm))
    refine ⟨lt_iff_toNat_lt.mpr (by omega), fun {j} hj hne => ?_⟩
    have hne' : j.toNat ≠ index.toNat := fun h => hne (toNat_inj.mp h)
    unfold slotsAhead
    rw [hsucc]
    split <;> split <;> omega

/-- What the loop of a batch comes to: it visits a client or comes closer to it, and its result is that of a
    row. -/
structure Swept (lease : ρ → Lease) (result : ρ → Result) (P : ρ → Prop) (s : TcpServer) (slots room : Nat)
    (index : UInt64) (w : Sweep ρ) : Prop where
  inv : ∃ ys, ServerInv w.server ys
  same : SameServer s w.server
  next : w.next < s.table.connectionCapacity
  reaches : ∀ {j}, j < s.table.connectionCapacity → (s.table.clients j).live = true →
    (∃ row ∈ w.rows, lease row = (s.table.clients j).lease) ∨
      w.server.table.clients j = s.table.clients j ∧
        slotsAhead s.table.connectionCapacity w.next j + (if 0 < slots ∧ 0 < room then 1 else 0) ≤
          slotsAhead s.table.connectionCapacity index j
  result : w.result = .ok ∨ ∃ row ∈ w.rows, result row = w.result
  rows : ∀ row ∈ w.rows, P row

theorem sweep_swept {result : ρ → Result} {P : ρ → Prop} (hvisit : VisitKeeps lease visit)
    (hresult : ∀ i s, result (visit i s).2.1 = (visit i s).1)
    (hP : ∀ {s : TcpServer} {xs : List UInt64} {i : UInt64}, ServerInv s xs → i < s.table.connectionCapacity →
      (s.table.clients i).live = true → P (visit i s).2.1) (slots : Nat) :
    ∀ (room : Nat) {index : UInt64} {s : TcpServer} {xs : List UInt64}, ServerInv s xs →
      index < s.table.connectionCapacity →
        Swept lease result P s slots room index (sweep visit slots room index s) := by
  induction slots with
  | zero =>
    intro room index s xs inv hindex
    exact ⟨⟨xs, inv⟩, .refl s, hindex, fun _ _ => .inr ⟨rfl, by simp [sweep]⟩, .inl rfl,
      fun row h => absurd h not_mem_nil⟩
  | succ slots ih =>
    intro room index s xs inv hindex
    obtain ⟨hnext, hcloser⟩ := cursor_next hindex
    unfold sweep
    dsimp only
    generalize (if index + 1 = s.table.connectionCapacity then 0 else index + 1) = next at hnext hcloser ⊢
    split
    · rename_i hstop
      refine ⟨⟨xs, inv⟩, .refl s, hindex, fun hj hlive => .inr ⟨rfl, ?_⟩, .inl rfl,
        fun row h => absurd h not_mem_nil⟩
      have hclients := (inv.schedule.accounts.counted hj).1
      rw [if_pos hlive] at hclients
      rw [if_neg (by omega), Nat.add_zero]
    split
    · rename_i hidle
      have rest := ih room inv hnext
      refine { rest with reaches := fun hj hlive =>
        (rest.reaches hj hlive).imp id fun ⟨hslot, hle⟩ => ⟨hslot, ?_⟩ }
      have hahead := hcloser hj (by rintro rfl; rw [hlive] at hidle; cases hidle)
      dsimp only
      split <;> omega
    rename_i hidle
    have hlive : (s.table.clients index).live = true := by simpa using hidle
    obtain ⟨⟨ys, hinv⟩, hsame, hothers, hrow⟩ := hvisit inv hindex hlive
    split
    · refine ⟨⟨ys, hinv⟩, hsame, hnext, fun {j} hj _ => ?_, .inr ⟨_, mem_singleton_self _, hresult _ _⟩,
        forall_mem_singleton.mpr (hP inv hindex hlive)⟩
      by_cases hne : j = index
      · exact .inl ⟨_, mem_singleton_self _, by rw [hrow, hne]⟩
      · have hahead := hcloser hj hne
        refine .inr ⟨hothers j hne, ?_⟩
        dsimp only
        split <;> omega
    · have rest := ih (room - 1) hinv (hsame.capacity ▸ hnext)
      refine ⟨rest.inv, hsame.trans rest.same, hsame.capacity ▸ rest.next, fun {j} hj hlive' => ?_,
        rest.result.imp id fun ⟨row, hmem, heq⟩ => ⟨row, mem_cons_of_mem _ hmem, heq⟩,
        forall_mem_cons.mpr ⟨hP inv hindex hlive, rest.rows⟩⟩
      by_cases hne : j = index
      · exact .inl ⟨_, mem_cons_self, by rw [hrow, hne]⟩
      · have hslot := hothers j hne
        have hahead := hcloser hj hne
        have hrest := rest.reaches (hsame.capacity ▸ hj) ((congrArg (·.live) hslot).trans hlive')
        rw [hslot, hsame.capacity] at hrest
        refine hrest.imp (fun ⟨row, hmem, hlease⟩ => ⟨row, mem_cons_of_mem _ hmem, hlease⟩)
          fun ⟨hslot', hle⟩ => ⟨hslot', ?_⟩
        dsimp only
        split <;> omega

theorem shutdownSlot_keeps (outcomes : UInt64 → Result × Bool) :
    VisitKeeps ShutdownRow.lease (shutdownSlot outcomes) := by
  intro s xs i inv hi hlive
  obtain ⟨hslot, -⟩ := inv.lease hi hlive
  obtain ⟨same, others, hinv, -⟩ := inv.release (s.table.clients i).lease (outcomes i).1 (outcomes i).2
  rw [hslot] at others
  exact ⟨⟨_, hinv⟩, same, others, rfl⟩

variable (requests : UInt64 → CloseRequest)

/-- A row of a close that got to the schedule has what the gate says. -/
def CloseRow.Scheduled (row : CloseRow) : Prop :=
  row.scheduleAttempted = true → row.scheduleResult = (requests row.lease.slotIndex).gate

theorem closeSlot_spec (inv : ServerInv s xs) {i : UInt64} (hi : i < s.table.connectionCapacity)
    (hlive : (s.table.clients i).live = true) :
    ((∃ ys, ServerInv (closeSlot requests i s).2.2 ys) ∧ SameServer s (closeSlot requests i s).2.2 ∧
      SameSlots i s (closeSlot requests i s).2.2 ∧
      (closeSlot requests i s).2.1.lease = (s.table.clients i).lease) ∧
      (closeSlot requests i s).2.1.Scheduled requests := by
  obtain ⟨hslot, connection, hfind⟩ := inv.lease hi hlive
  obtain ⟨hinv, hsame, hclients⟩ := proceed_spec inv (s.table.clients i).lease (requests i).closeState
  have hothers : SameSlots i s (s.proceed (s.table.clients i).lease (requests i).closeState) :=
    fun j _ => by rw [hclients]
  unfold closeSlot CloseRow.Scheduled
  dsimp only
  rw [hfind]
  dsimp only
  split
  · exact ⟨⟨⟨xs, hinv⟩, hsame, hothers, rfl⟩, fun h => by cases h⟩
  split
  · exact ⟨⟨⟨xs, hinv⟩, hsame, hothers, rfl⟩, fun _ => by rw [hslot]⟩
  rename_i hgate
  obtain ⟨s', happend, hrelinked, hinv'⟩ := hinv.append (hsame.capacity ▸ hi) (by rw [hclients]; exact hlive)
  rw [happend]
  refine ⟨⟨⟨_, hinv'⟩, hsame.trans hrelinked.same, fun j _ => ?_, rfl⟩, fun _ => ?_⟩
  · show s'.table.clients j = s.table.clients j
    rw [hrelinked.table, hclients]
  · rw [hslot]
    exact (not_not.mp hgate).symm

theorem closeSlot_keeps : VisitKeeps CloseRow.lease (closeSlot requests) :=
  fun inv hi hlive => (closeSlot_spec requests inv hi hlive).1

/-- What a batch of positive budgets comes to, from this cursor to that one. -/
structure BatchSpec (lease : ρ → Lease) (s : TcpServer) (o : BatchOutcome ρ) (cursor cursor' : UInt64) : Prop where
  inv : ∃ ys, ServerInv o.server ys
  stop : o.server.table.stopRequested = s.table.stopRequested
  capacity : o.server.table.connectionCapacity = s.table.connectionCapacity
  reaches : ∀ {j}, j < s.table.connectionCapacity → (s.table.clients j).live = true →
    (∃ row ∈ o.rows, lease row = (s.table.clients j).lease) ∨
      o.server.table.clients j = s.table.clients j ∧
        slotsAhead s.table.connectionCapacity cursor' j < slotsAhead s.table.connectionCapacity cursor j

theorem ServerInv.setShutdown (inv : ServerInv s xs) (hnext : next < s.table.connectionCapacity) :
    ServerInv { s with shutdownNextSlot := next } xs :=
  ⟨inv.table, { inv.schedule with }, hnext, inv.close⟩

theorem ServerInv.setClose (inv : ServerInv s xs) (hnext : next < s.table.connectionCapacity) :
    ServerInv { s with closeNextSlot := next } xs :=
  ⟨inv.table, { inv.schedule with }, inv.shutdown, hnext⟩

/-- The budgets of a batch that is not refused. -/
def BatchBudget (maxSlots resultCapacity : Nat) : Prop :=
  0 < maxSlots ∧ maxSlots ≤ maxConnections ∧ 0 < resultCapacity ∧ resultCapacity ≤ maxConnections

theorem closeSlot_result (i : UInt64) (s : TcpServer) :
    (closeSlot requests i s).2.1.result = (closeSlot requests i s).1 := by
  unfold closeSlot
  dsimp only
  split
  · rfl
  split
  · rfl
  · rfl

/-- A batch that is not refused comes closer to the clients that it does not visit. -/
theorem Swept.closer {maxSlots resultCapacity : Nat} {result : ρ → Result} {P : ρ → Prop} {w : Sweep ρ}
    (h : Swept lease result P s (min maxSlots s.table.connectionCapacity.toNat) resultCapacity index w)
    (budget : BatchBudget maxSlots resultCapacity) (hj : j < s.table.connectionCapacity)
    (hlive : (s.table.clients j).live = true) :
    (∃ row ∈ w.rows, lease row = (s.table.clients j).lease) ∨ w.server.table.clients j = s.table.clients j ∧
      slotsAhead s.table.connectionCapacity w.next j < slotsAhead s.table.connectionCapacity index j := by
  have hcapacity := lt_iff_toNat_lt.mp hj
  have hreaches := h.reaches hj hlive
  rw [if_pos ⟨by have := budget.1; omega, budget.2.2.1⟩] at hreaches
  exact hreaches

section

variable (inv : ServerInv s xs) {maxSlots resultCapacity : Nat}
include inv

theorem shutdownSlot_swept (outcomes : UInt64 → Result × Bool) (slots room : Nat) :
    Swept ShutdownRow.lease ShutdownRow.result (fun _ => True) s slots room s.shutdownNextSlot
      (sweep (shutdownSlot outcomes) slots room s.shutdownNextSlot s) :=
  sweep_swept (shutdownSlot_keeps outcomes) (fun _ _ => rfl) (fun _ _ _ => trivial) slots room inv inv.shutdown

theorem closeSlot_swept (requests : UInt64 → CloseRequest) (slots room : Nat) :
    Swept CloseRow.lease CloseRow.result (CloseRow.Scheduled requests) s slots room s.closeNextSlot
      (sweep (closeSlot requests) slots room s.closeNextSlot s) :=
  sweep_swept (closeSlot_keeps requests) (closeSlot_result requests)
    (fun inv hi hlive => (closeSlot_spec requests inv hi hlive).2) slots room inv inv.close

theorem shutdownBatch_cases (maxSlots resultCapacity : Nat) (outcomes : UInt64 → Result × Bool) :
    let limit := min maxSlots s.table.connectionCapacity.toNat
    let w := sweep (shutdownSlot outcomes) limit resultCapacity s.shutdownNextSlot s
    (¬ (s.table.stopRequested = true ∧ BatchBudget maxSlots resultCapacity) ∧
      ∃ r ∈ [Result.ok, .invalidArgument, .range, .busy],
        s.shutdownBatch maxSlots resultCapacity outcomes = s.batchRefused r) ∨
      s.shutdownBatch maxSlots resultCapacity outcomes =
        batchDone w limit { w.server with shutdownNextSlot := w.next } := by
  unfold shutdownBatch BatchBudget
  split
  · exact .inl ⟨by omega, _, by simp, rfl⟩
  split
  · exact .inl ⟨by omega, _, by simp, rfl⟩
  split
  · rename_i hrun
    exact .inl ⟨by simp [hrun], _, by simp, rfl⟩
  rw [if_neg (by simp [inv.shutdown, queueValid_eq inv.schedule])]
  exact .inr rfl

theorem closeBatch_cases (maxSlots resultCapacity : Nat) (requests : UInt64 → CloseRequest) :
    let limit := min maxSlots s.table.connectionCapacity.toNat
    let w := sweep (closeSlot requests) limit resultCapacity s.closeNextSlot s
    (¬ (s.table.stopRequested = false ∧ BatchBudget maxSlots resultCapacity) ∧
      ∃ r ∈ [Result.ok, .invalidArgument, .range, .busy],
        s.closeBatch maxSlots resultCapacity requests = s.batchRefused r) ∨
      s.closeBatch maxSlots resultCapacity requests =
        batchDone w limit { w.server with closeNextSlot := w.next } := by
  unfold closeBatch BatchBudget
  split
  · exact .inl ⟨by omega, _, by simp, rfl⟩
  split
  · exact .inl ⟨by omega, _, by simp, rfl⟩
  split
  · rename_i hstop
    exact .inl ⟨by simp [hstop], _, by simp, rfl⟩
  rw [if_neg (by simp [inv.close, queueValid_eq inv.schedule])]
  exact .inr rfl

theorem shutdownBatch_spec (hstop : s.table.stopRequested = true) (budget : BatchBudget maxSlots resultCapacity)
    (outcomes : UInt64 → Result × Bool) :
    BatchSpec ShutdownRow.lease s (s.shutdownBatch maxSlots resultCapacity outcomes) s.shutdownNextSlot
      (s.shutdownBatch maxSlots resultCapacity outcomes).server.shutdownNextSlot := by
  have h := shutdownSlot_swept inv outcomes (min maxSlots s.table.connectionCapacity.toNat) resultCapacity
  rw [(shutdownBatch_cases inv maxSlots resultCapacity outcomes).resolve_left fun hr => hr.1 ⟨hstop, budget⟩]
  obtain ⟨ys, hinv⟩ := h.inv
  exact { h.same with
      inv := ⟨ys, hinv.setShutdown (lt_of_lt_of_eq h.next h.same.capacity.symm)⟩, reaches := h.closer budget }

theorem closeBatch_spec (hstop : s.table.stopRequested = false) (budget : BatchBudget maxSlots resultCapacity)
    (requests : UInt64 → CloseRequest) :
    BatchSpec CloseRow.lease s (s.closeBatch maxSlots resultCapacity requests) s.closeNextSlot
      (s.closeBatch maxSlots resultCapacity requests).server.closeNextSlot := by
  have h := closeSlot_swept inv requests (min maxSlots s.table.connectionCapacity.toNat) resultCapacity
  rw [(closeBatch_cases inv maxSlots resultCapacity requests).resolve_left fun hr => hr.1 ⟨hstop, budget⟩]
  obtain ⟨ys, hinv⟩ := h.inv
  exact { h.same with
      inv := ⟨ys, hinv.setClose (lt_of_lt_of_eq h.next h.same.capacity.symm)⟩, reaches := h.closer budget }

theorem shutdownBatch_done (maxSlots resultCapacity : Nat) (outcomes : UInt64 → Result × Bool) :
    let o := s.shutdownBatch maxSlots resultCapacity outcomes
    (∃ ys, ServerInv o.server ys) ∧
      (o.result ∈ [.ok, .invalidArgument, .range, .busy] ∨ ∃ row ∈ o.rows, row.result = o.result) := by
  intro o
  rcases shutdownBatch_cases inv maxSlots resultCapacity outcomes with ⟨-, r, hr, e⟩ | e
  · rw [show o = _ from e]
    exact ⟨⟨xs, inv⟩, .inl hr⟩
  · have h := shutdownSlot_swept inv outcomes (min maxSlots s.table.connectionCapacity.toNat) resultCapacity
    obtain ⟨ys, hinv⟩ := h.inv
    rw [show o = _ from e]
    exact ⟨⟨ys, hinv.setShutdown (lt_of_lt_of_eq h.next h.same.capacity.symm)⟩,
      h.result.imp (fun hok => mem_cons.mpr (.inl hok)) id⟩

theorem closeBatch_done (maxSlots resultCapacity : Nat) (requests : UInt64 → CloseRequest) :
    let o := s.closeBatch maxSlots resultCapacity requests
    (∃ ys, ServerInv o.server ys) ∧
      (o.result ∈ [.ok, .invalidArgument, .range, .busy] ∨ ∃ row ∈ o.rows, row.result = o.result) ∧
      ∀ row ∈ o.rows, row.Scheduled requests := by
  intro o
  rcases closeBatch_cases inv maxSlots resultCapacity requests with ⟨-, r, hr, e⟩ | e
  · rw [show o = _ from e]
    exact ⟨⟨xs, inv⟩, .inl hr, fun row h => absurd h not_mem_nil⟩
  · have h := closeSlot_swept inv requests (min maxSlots s.table.connectionCapacity.toNat) resultCapacity
    obtain ⟨ys, hinv⟩ := h.inv
    rw [show o = _ from e]
    exact ⟨⟨ys, hinv.setClose (lt_of_lt_of_eq h.next h.same.capacity.symm)⟩,
      h.result.imp (fun hok => mem_cons.mpr (.inl hok)) id, h.rows⟩

end

/-- The rows of batches one behind the other. -/
def batchRows {ρ : Type} : List (TcpServer → BatchOutcome ρ) → TcpServer → List ρ
  | [], _ => []
  | batch :: rest, s => (batch s).rows ++ batchRows rest (batch s).server

/-- **Batches that come closer visit everybody**, when there are enough of them. -/
theorem batchRows_visit (cursor : TcpServer → UInt64) (P : TcpServer → Prop)
    (batches : List (TcpServer → BatchOutcome ρ))
    (hbatches : ∀ batch ∈ batches, ∀ {s : TcpServer} {xs : List UInt64}, ServerInv s xs → P s →
      BatchSpec lease s (batch s) (cursor s) (cursor (batch s).server) ∧ P (batch s).server) :
    ∀ {s : TcpServer} {xs : List UInt64}, ServerInv s xs → P s → j < s.table.connectionCapacity →
      (s.table.clients j).live = true →
        slotsAhead s.table.connectionCapacity (cursor s) j < batches.length →
          ∃ row ∈ batchRows batches s, lease row = (s.table.clients j).lease := by
  induction batches with
  | nil =>
    intro s xs _ _ _ _ hfar
    exact absurd hfar (Nat.not_lt_zero _)
  | cons batch rest ih =>
    intro s xs inv hP hj hlive hfar
    obtain ⟨⟨⟨ys, hinv⟩, -, hcapacity, hreaches⟩, hP'⟩ := hbatches batch (mem_cons_self ..) inv hP
    unfold batchRows
    rcases hreaches hj hlive with ⟨row, hrow, heq⟩ | ⟨hslot, hcloser⟩
    · exact ⟨row, mem_append_left _ hrow, heq⟩
    have hfar' : slotsAhead (batch s).server.table.connectionCapacity (cursor (batch s).server) j < rest.length := by
      rw [hcapacity]
      rw [length_cons] at hfar
      omega
    obtain ⟨row, hrow, heq⟩ := ih (fun b hb => hbatches b (mem_cons_of_mem _ hb)) hinv hP'
      (hcapacity ▸ hj) (by rw [hslot]; exact hlive) hfar'
    exact ⟨row, mem_append_right _ hrow, by rw [heq, hslot]⟩

end Batches

/-! ## 7. Runs -/

/-- The slots that this is true of. -/
def TcpServer.slotsWith (s : TcpServer) (p : ClientSlot → Bool) : Finset Nat :=
  (Finset.range s.table.connectionCapacity.toNat).filter fun i => p (s.table.clients (UInt64.ofNat i)) = true

/-- The counters of the server count its slots. -/
structure CountersAgree (s : TcpServer) : Prop where
  clients : s.table.clientCount = (s.slotsWith (·.live)).card
  registered : s.table.registeredClients = (s.slotsWith (·.bound)).card
  bytes : s.table.bufferBytes =
    Finset.sum (s.slotsWith (·.live)) fun i => (s.table.clients (UInt64.ofNat i)).bufferBytes

/-- These are the slots of the queue, in its order. -/
structure QueueOf (s : TcpServer) (xs : List UInt64) : Prop where
  linked : LinkedQueue s.links xs
  nodup : xs.Nodup
  members : ∀ i, i ∈ xs ↔
    i < s.table.connectionCapacity ∧ (s.table.clients i).live = true ∧ (s.marks i).queued = true
  length : s.queueCount = xs.length
  bound : s.queueCount ≤ s.table.clientCount

/-- The checks of the queue pass, whatever the call that makes them. -/
structure ChecksPass (s : TcpServer) : Prop where
  valid : s.queueValid = true
  position : ∀ i, (s.marks i).queued = true → s.queuePosition i = true
  append : ∀ i, i < s.table.connectionCapacity → (s.table.clients i).live = true → (s.queueAppend i).1 = .ok
  remove : ∀ i, i < s.table.connectionCapacity → (s.queueRemove i).1 = .ok
  schedule : ∀ client, (s.scheduleClient client).1 = match s.table.findClient client with
    | .error e => e.val
    | .ok _ => .ok
  notify : ∀ i events, events &&& ~~~knownEvents = 0 → s.queueFault = false →
    (s.notify i events).queueFault = false
  release : ∀ client detached closeFails,
    (s.releaseClient client detached closeFails).1 = (s.table.releaseClient client detached closeFails).1
  shutdown : ∀ maxSlots resultCapacity outcomes,
    (s.shutdownBatch maxSlots resultCapacity outcomes).result ∈ [.ok, .invalidArgument, .range, .busy] ∨
      ∃ row ∈ (s.shutdownBatch maxSlots resultCapacity outcomes).rows,
        row.result = (s.shutdownBatch maxSlots resultCapacity outcomes).result
  close : ∀ maxSlots resultCapacity requests,
    ((s.closeBatch maxSlots resultCapacity requests).result ∈ [.ok, .invalidArgument, .range, .busy] ∨
      ∃ row ∈ (s.closeBatch maxSlots resultCapacity requests).rows,
        row.result = (s.closeBatch maxSlots resultCapacity requests).result) ∧
      ∀ row ∈ (s.closeBatch maxSlots resultCapacity requests).rows, row.Scheduled requests

/-- What the single calls do to the queue: who is scheduled goes behind the others, once; who is released leaves
    his place; those with more to do after a round go behind those it did not reach. -/
structure QueueMoves (s : TcpServer) (xs : List UInt64) : Prop where
  schedule : ∀ client, QueueOf (s.scheduleClient client).2 (s.scheduled xs client)
  notify : ∀ i events, QueueOf (s.notify i events) (xs ++ arrivals s.table.clients xs [(i, events)])
  release : ∀ client detached closeFails, QueueOf (s.releaseClient client detached closeFails).2.2
    (if (s.releaseClient client detached closeFails).2.1 then xs.erase client.slotIndex else xs)
  admission : ∀ c, QueueOf (s.admitBatch c).server xs
  round : ∀ c, QueueOf (s.runRound c).server
    ((s.waiting xs c).drop (s.runRound c).turns.length ++ requeuedSlots (s.runRound c).turns)

section Run

variable {s : TcpServer} {xs : List UInt64} {options : ConnectionPoolOptions}
  {storageMemory control index : Bool} {pool : ConnectionPool Nat} {source : UInt64}

theorem ServerInv.counters (inv : ServerInv s xs) : CountersAgree s := by
  have a := inv.schedule.accounts
  refine ⟨?_, ?_, ?_⟩
  · unfold slotsWith
    rw [a.live, Finset.card_filter]
    rfl
  · unfold slotsWith
    rw [a.registered, Finset.card_filter]
    rfl
  · unfold slotsWith
    rw [a.bytes, Finset.sum_filter]
    rfl

theorem ServerInv.queueOf (inv : ServerInv s xs) : QueueOf s xs := by
  refine ⟨inv.schedule.queue, inv.schedule.queue.nodup, fun i => ⟨fun hi => ?_, fun hi => ?_⟩,
    inv.schedule.count, ?_⟩
  · exact ⟨(inv.schedule.live i hi).1, (inv.schedule.live i hi).2, (inv.schedule.queued i).mpr hi⟩
  · exact (inv.schedule.queued i).mp hi.2.2
  · rw [inv.schedule.count]
    exact inv.schedule.accounts.length_le inv.schedule.queue.nodup inv.schedule.live

theorem ServerInv.checks (inv : ServerInv s xs) : ChecksPass s := by
  obtain ⟨lent, issued, table, -⟩ := inv.table
  refine ⟨queueValid_eq inv.schedule, fun i hi => queuePosition_eq inv.schedule ((inv.schedule.queued i).mp hi),
    fun i hi hlive => ?_, fun i hi => ?_, fun client => ?_, fun i events hknown hfault => ?_,
    fun client detached closeFails => (releaseClient_spec inv.schedule table client detached closeFails).1,
    fun m r o => (shutdownBatch_done inv m r o).2, fun m r o => (closeBatch_done inv m r o).2⟩
  · obtain ⟨s', happend, -⟩ := queueAppend_spec inv.schedule hi hlive
    rw [happend]
  · obtain ⟨s', hremove, -⟩ := queueRemove_spec inv.schedule hi
    rw [hremove]
  · exact (scheduleClient_spec inv client).2
  · rw [(notify_spec inv i events).2.2, hfault, Unknown, hknown]
    exact Bool.and_false _

section

variable (hpool : ConnectionPool.create options source storageMemory control index = .ok pool)
include hpool

theorem create_capacity : 0 < pool.capacity := by
  unfold ConnectionPool.create at hpool
  split at hpool
  · cases hpool
  rename_i hoptions
  have hcapacity : options.capacity ≠ 0 := fun h => hoptions (.inl h)
  repeat' split at hpool
  all_goals cases hpool
  exact UInt64.pos_iff_ne_zero.mpr hcapacity

theorem serverInv_opened : ServerInv (.opened pool) [] := by
  obtain ⟨free, hinv⟩ := connectionPoolInv_create hpool
  have hpositive := create_capacity hpool
  refine ⟨⟨[], [], clientTableInv_opened hinv, fun l hl => absurd hl not_mem_nil⟩,
    ⟨accounts_opened, ⟨nodup_singleton none, ?_⟩, rfl, fun i => ?_, fun i hi => absurd hi not_mem_nil⟩,
    hpositive, hpositive⟩
  · simp [links, opened, Links.Adj]
  · simp [opened, QueueMark.empty]

end

theorem serverInv_exec (inv : ServerInv s xs) (call : ServerCall) : ∃ ys, ServerInv (s.exec call) ys := by
  cases call with
  | admission c => exact ⟨xs, admitBatch_spec inv c⟩
  | schedule client => exact ⟨_, (scheduleClient_spec inv client).1⟩
  | notify index events => exact ⟨_, (notify_spec inv index events).1⟩
  | round c => exact ⟨_, (runRound_spec inv c).inv⟩
  | release client detached closeFails => exact ⟨_, (inv.release client detached closeFails).2.2.1⟩
  | shutdown maxSlots resultCapacity outcomes => exact (shutdownBatch_done inv maxSlots resultCapacity outcomes).1
  | close maxSlots resultCapacity requests => exact (closeBatch_done inv maxSlots resultCapacity requests).1
  | connection connection closeState callbackActive => exact ⟨xs, inv.connection connection closeState callbackActive⟩
  | autoRelease enabled =>
    exact ⟨xs, inv.table, { inv.schedule with }, inv.shutdown, inv.close⟩
  | autoClose enabled =>
    exact ⟨xs, inv.table, { inv.schedule with }, inv.shutdown, inv.close⟩
  | stop =>
    obtain ⟨lent, issued, table, howners⟩ := inv.table
    exact ⟨xs, ⟨lent, issued, clientTableInv_requestStop table, howners⟩,
      inv.schedule.setTable inv.schedule.accounts inv.schedule.live, inv.shutdown, inv.close⟩

theorem ServerRun.inv (run : ServerRun s) : ∃ xs, ServerInv s xs := by
  induction run with
  | start hpool => exact ⟨[], serverInv_opened hpool⟩
  | step run call ih =>
    obtain ⟨xs, inv⟩ := ih
    exact serverInv_exec inv call

theorem ServerInv.moves (inv : ServerInv s xs) : QueueMoves s xs :=
  ⟨fun client => (scheduleClient_spec inv client).1.queueOf, fun i events => (notify_spec inv i events).1.queueOf,
    fun client detached closeFails => (inv.release client detached closeFails).2.2.1.queueOf,
    fun c => (admitBatch_spec inv c).queueOf, fun c => (runRound_spec inv c).inv.queueOf⟩

/-- **The schedule of the server.** In every state of every run the counters count the clients and the queue is
    a list of live slots without repetition; who is scheduled goes behind the others, and a round takes its clients
    from the front, each once; and batches as many as there are slots visit every client. -/
theorem server_schedule (run : ServerRun s) :
    CountersAgree s ∧ ChecksPass s ∧ ∃ xs, QueueOf s xs ∧ QueueMoves s xs ∧
      (∀ c : RoundCall, RoundServes s xs c (s.runRound c)) ∧
      (s.table.stopRequested = true → ∀ calls : List (Nat × Nat × (UInt64 → Result × Bool)),
        (∀ c ∈ calls, BatchBudget c.1 c.2.1) → s.table.connectionCapacity.toNat ≤ calls.length →
          ∀ i, (s.table.clients i).live = true →
            ∃ row ∈ batchRows (calls.map fun c s => s.shutdownBatch c.1 c.2.1 c.2.2) s,
              row.lease = (s.table.clients i).lease) ∧
      (s.table.stopRequested = false → ∀ calls : List (Nat × Nat × (UInt64 → CloseRequest)),
        (∀ c ∈ calls, BatchBudget c.1 c.2.1) → s.table.connectionCapacity.toNat ≤ calls.length →
          ∀ i, (s.table.clients i).live = true →
            ∃ row ∈ batchRows (calls.map fun c s => s.closeBatch c.1 c.2.1 c.2.2) s,
              row.lease = (s.table.clients i).lease) := by
  obtain ⟨xs, inv⟩ := run.inv
  refine ⟨inv.counters, inv.checks, xs, inv.queueOf, inv.moves, fun c => (runRound_spec inv c).toRoundServes,
    fun hstop calls hcalls hmany i hlive => ?_, fun hstop calls hcalls hmany i hlive => ?_⟩
  · have hi := inv.schedule.accounts.inside i hlive
    have hfar := slotsAhead_lt inv.shutdown hi
    refine batchRows_visit shutdownNextSlot (fun s => s.table.stopRequested = true) _
      (fun batch hbatch {s xs} inv hstop => ?_) inv hstop hi hlive (by rw [length_map]; omega)
    obtain ⟨c, hc, rfl⟩ := mem_map.mp hbatch
    have hspec := shutdownBatch_spec inv hstop (hcalls c hc) c.2.2
    exact ⟨hspec, hspec.stop.trans hstop⟩
  · have hi := inv.schedule.accounts.inside i hlive
    have hfar := slotsAhead_lt inv.close hi
    refine batchRows_visit closeNextSlot (fun s => s.table.stopRequested = false) _
      (fun batch hbatch {s xs} inv hstop => ?_) inv hstop hi hlive (by rw [length_map]; omega)
    obtain ⟨c, hc, rfl⟩ := mem_map.mp hbatch
    have hspec := closeBatch_spec inv hstop (hcalls c hc) c.2.2
    exact ⟨hspec, hspec.stop.trans hstop⟩

end Run

/-- A server with two clients, of which the second one is to have its turn. -/
def twoClients : TcpServer :=
  ((opened (.fresh (.fresh ⟨8, 8, 2, 8, 16⟩ 200 65184 48 1 0) ⟨2, 65536, 8⟩)).exec
    (.admission ⟨⟨1, 1, 8⟩, 2, 2, 2, true, .ok,
      fun _ => ⟨.ok, 1, 1, 0, .batchFull, true, .ok, .ok, .ok, false⟩⟩)).exec (.schedule ⟨1, 1, 2⟩)

/-- A round whose wait brings the first one; the one that is served first has more to do. -/
def twoTurns : RoundCall :=
  ⟨0, false, 8, 8, true, [(0, eventRead)], .ok, fun k => ⟨.ok, k == 0, false, .open, false, .ok, false, .ok, false⟩⟩

theorem server_schedule_two : (twoClients.runRound twoTurns).turns.map (·.client) = [⟨1, 1, 2⟩, ⟨1, 0, 1⟩] ∧
    QueueOf (twoClients.runRound twoTurns).server [1] := by
  have hpool : (ConnectionPool.create ⟨2, 65536, 8⟩ 0 true true true : Except Result (ConnectionPool Nat)) =
      .ok (.fresh (.fresh ⟨8, 8, 2, 8, 16⟩ 200 65184 48 1 0) ⟨2, 65536, 8⟩) := rfl
  have hrun : ServerRun twoClients := ((ServerRun.start hpool).step _).step _
  obtain ⟨-, -, xs, queue, moves, round, -⟩ := server_schedule hrun
  have hcount : twoClients.queueCount = 1 := by decide +kernel
  obtain ⟨i, rfl⟩ := length_eq_one_iff.mp (queue.length.symm.trans hcount)
  obtain rfl : 1 = i := mem_singleton.mp ((queue.members 1).mpr (by decide))
  have hwaiting : twoClients.waiting [1] twoTurns = [1, 0] := by decide
  have hserves : twoTurns.Serves twoClients := ⟨by decide, rfl, fun _ hn => mem_singleton.mp hn ▸ rfl⟩
  have h := round twoTurns
  have hlength := (h.all hserves).2 (by decide)
  rw [hwaiting] at hlength
  have hserved := h.served
  have hqueue := moves.round twoTurns
  rw [hwaiting, hlength] at hserved hqueue
  exact ⟨hserved.trans (by decide), hqueue⟩

end Vireo.Net
