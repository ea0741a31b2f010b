/-
  File:      Vireo/Net/TlsRun.lean
  Subject:   THE RUNS OF A TLS CONNECTION, and what every call keeps of its I/O storage.
-/
import Vireo.Lib.EventLog
import Vireo.Net.TlsClose
import Vireo.Net.TlsHandshake

namespace Vireo.Net.Tls

open Base Lib List

/-! ## 1. Runs -/

/-- The calls on a connection, with what they are answered. -/
inductive Call where
  | prepare (options : IoOptions) (ops : SetupOps)
  | configure (options : IoOptions) (ops : SetupOps)
  | arm (now deadline : Nat) (view : NativeView)
  | handshake (timed : Bool) (now : Nat) (reply : HandshakeReply)
  | enqueue (data : Option (Nat → UInt8)) (size : UInt64)
  | send (budget : IoBudget) (ops : Nat → NativeReply)
  | receive (budget : IoBudget) (ops : Nat → NativeReply)
  | peek
  | consume (size : UInt64)
  | flowRefresh (pending : Int)
  | closeRequest (now deadline : Nat)
  | closeStep (now maxBytes : Nat) (ops : CloseOps)

def Step.after {ι : Type} (s : Step ι) : Connection × List Event := (s.connection, s.events)

/-- The connection a call leaves, and what passed. -/
def Connection.exec (c : Connection) : Call → Connection × List Event
  | .prepare options ops => (ioPrepare c options ops).after
  | .configure options ops => (ioConfigure c options ops).after
  | .arm now deadline view => (deadlineArm c now deadline view).after
  | .handshake timed now reply => (handshakeDrive c timed now reply).after
  | .enqueue data size => (Tls.enqueue c data size).after
  | .send budget ops => (Tls.send c budget ops).after
  | .receive budget ops => (Tls.receive c budget ops).after
  | .peek => (readPeek c).after
  | .consume size => (readConsume c size).after
  | .flowRefresh pending => (Tls.flowRefresh c pending).after
  | .closeRequest now deadline => (Tls.closeRequest c now deadline).after
  | .closeStep now maxBytes ops => (closeWithOps c now maxBytes ops).after

/-- The connections reached from a creation, each with its log. -/
inductive Run : Connection → List Event → Prop
  | create : Run .created []
  | call {c : Connection} {log : List Event} (run : Run c log) (k : Call) : Run (c.exec k).1 (log ++ (c.exec k).2)

/-- The connection that a sequence of calls leaves, and what passed. -/
def Connection.execAll (c : Connection) : List Call → Connection × List Event
  | [] => (c, [])
  | k :: ks =>
    let first := c.exec k
    let rest := first.1.execAll ks
    (rest.1, first.2 ++ rest.2)

theorem Run.calls {c : Connection} {log : List Event} (run : Run c log) (ks : List Call) :
    Run (c.execAll ks).1 (log ++ (c.execAll ks).2) := by
  induction ks generalizing c log with
  | nil => exact (List.append_nil log).symm ▸ run
  | cons k ks ih =>
    have hrest := ih (run.call k)
    rw [append_assoc] at hrest
    exact hrest

/-! ## 2. What a log says -/

namespace Event

/-- The bytes an event puts into the write FIFO. -/
def enqueued : Event → List UInt8
  | .enqueue bytes => bytes
  | _ => []

/-- The bytes an event confirms as written. -/
def written : Event → List UInt8
  | .write _ (.confirmed bytes) => bytes
  | _ => []

/-- The bytes an event confirms as received. -/
def received : Event → List UInt8
  | .read _ (.confirmed bytes) => bytes
  | _ => []

/-- The bytes an event takes out of the read FIFO. -/
def consumed : Event → List UInt8
  | .consume bytes => bytes
  | _ => []

/-- The native write that has to be made again after an event. -/
def retried (pending : Option (List UInt8)) : Event → Option (List UInt8)
  | .write bytes (.want _) => some bytes
  | .write _ _ => none
  | _ => pending

end Event


open Event (consumed enqueued received write written)
/-- The native write that has to be made again after a log. -/
def pendingWrite (log : List Event) : Option (List UInt8) := log.foldl Event.retried none

/-- A native write makes the unfinished one again, if there is one. -/
def RetriesSame (before : List Event) : Event → Prop
  | .write bytes _ => ∀ pending, pendingWrite before = some pending → bytes = pending
  | _ => True

theorem pendingWrite_snoc (log : List Event) (e : Event) :
    pendingWrite (log ++ [e]) = e.retried (pendingWrite log) := by
  unfold pendingWrite
  rw [foldl_append]
  rfl

/-! ## 3. The invariants -/

/-- The bytes of the unfinished request of a channel. -/
def Channel.request (ch : Channel) : List UInt8 := (List.range ch.retryBytes).map ch.scratch

/-- A sound FIFO of the configured capacity. -/
structure Fifo (b : Buffer) (capacity : Nat) : Prop where
  inv : b.Inv
  capacity : b.capacity.toNat = capacity

/-- The I/O storage is sound. -/
structure IoInv (io : IoStorage) : Prop where
  read : Fifo io.read.buffer io.options.readCapacity
  write : Fifo io.write.buffer io.options.writeCapacity
  readRetry : io.read.retryBytes + io.read.buffer.unread.length ≤ io.options.readCapacity
  writeRetry : io.write.retryBytes ≤ io.write.buffer.unread.length
  readWait : io.state ≠ .failed → (io.read.retryBytes = 0 ↔ io.read.wait = .none)
  writeWait : io.state ≠ .failed → (io.write.retryBytes = 0 ↔ io.write.wait = .none)
  alone : io.state ≠ .failed → io.blocks true = true → io.blocks false = false
  options : io.state ≠ .disabled → ∃ total, io.options.Admissible total

/-- The FIFOs hold what the log leaves of the two streams, and no native write was made differently
    again. -/
structure Accounts (io : IoStorage) (log : List Event) : Prop where
  sent : log.flatMap enqueued = log.flatMap written ++ io.write.buffer.unread
  got : log.flatMap received = log.flatMap consumed ++ io.read.buffer.unread
  stable : Lawful RetriesSame log

/-- The unfinished write is the last attempt, and the front of the write FIFO. -/
structure Pending (io : IoStorage) (log : List Event) : Prop where
  last : pendingWrite log = if io.write.retryBytes = 0 then none else some io.write.request
  front : io.write.request = io.write.buffer.unread.take io.write.retryBytes

section Invariants

variable {io : IoStorage} {log : List Event} {ch : Channel} {capacity : Nat} {b : Buffer} {r : NativeReply}
  {writing closing : Bool} {length : Nat} {data : Scratch} {n : Nat} {budget : IoBudget} {p : IoProgress}
  {bytes : List UInt8}

theorem readable_eq (inv : b.Inv) : readable b = b.unread.length := (inspect_eq inv).1

/-- **An append behind a compaction succeeds where the bytes fit into what is not unread.** -/
theorem appendCompacting_fits (inv : b.Inv) (data : Option (Nat → UInt8)) (size : UInt64)
    (hnull : ¬ (size ≠ 0 ∧ data.isNone)) (hfit : b.unread.length + size.toNat ≤ b.capacity.toNat) :
    (appendCompacting b data size).1 = .ok ∧ (appendCompacting b data size).2.Inv ∧
      (appendCompacting b data size).2.capacity = b.capacity ∧
      (appendCompacting b data size).2.unread = b.unread ++ bytesAt data size := by
  -- the buffer that is appended to
  have hmoved : ∀ m : Buffer, m.Inv → m.unread = b.unread → m.capacity = b.capacity → size.toNat ≤ m.room →
      (m.append data size).1 = .ok ∧ (m.append data size).2.Inv ∧
        (m.append data size).2.capacity = b.capacity ∧
        (m.append data size).2.unread = b.unread ++ bytesAt data size := by
    intro m hm hunread hcap hroom
    obtain ⟨hok, hcapacity, -⟩ := append_fits hm data size hnull hroom
    rcases leaves_append hm data size with ⟨hne, -⟩ | ⟨-, hinv, hbytes⟩
    · exact absurd hok hne
    · exact ⟨hok, hinv, hcapacity.trans hcap, by rw [hbytes, hunread]⟩
  unfold appendCompacting
  split
  · obtain ⟨-, hcap, hroom⟩ := compact_fits inv
    rcases leaves_compact inv with ⟨hne, -⟩ | ⟨-, hinv, hunread⟩
    · exact absurd rfl hne
    · exact hmoved _ hinv hunread hcap (by omega)
  · rename_i htail
    have hle := UInt64.le_iff_toNat_le.mp (UInt64.not_lt.mp htail)
    rw [(inspect_eq inv).2] at hle
    exact hmoved b inv rfl rfl hle

theorem outcome_confirmed (h : r.outcome writing length data = .confirmed bytes) :
    bytes = (List.range bytes.length).map data ∧ bytes.length ≤ length ∧
      (writing = true → bytes.length = length) := by
  unfold NativeReply.outcome at h
  split at h
  · rename_i hconfirmed
    obtain ⟨-, -, hle, hfull⟩ := hconfirmed
    obtain rfl := NativeOutcome.confirmed.inj h
    rw [length_map, length_range]
    refine ⟨rfl, hle, fun hw => hfull.resolve_left ?_⟩
    rw [hw]
    decide
  · repeat' split at h
    all_goals cases h

theorem outcome_want {direction : Wait} (h : r.outcome writing length data = .want direction) :
    direction ≠ .none := by
  unfold NativeReply.outcome at h
  repeat' split at h
  all_goals cases h
  all_goals decide

theorem outcome_peerEof (h : r.outcome writing length data = .peerEof) : writing = false := by
  unfold NativeReply.outcome at h
  repeat' split at h
  all_goals cases h
  rename_i heof
  exact heof.2.2

/-! ## 4. One native call -/

/-- What a native call or a drive of one operation keeps. -/
structure Drives (writing : Bool) (io io' : IoStorage) (log : List Event) : Prop where
  inv : IoInv io'
  accounts : Accounts io' log
  options : io'.options = io.options
  live : io'.state ≠ .failed → io'.state = .opened ∧ Pending io' log ∧ io'.blocks (!writing) = false

theorem map_getD_range {l : List UInt8} (h : n ≤ l.length) :
    ((List.range n).map fun i => l.getD i 0) = l.take n := by
  refine ext_getElem ?_ fun i h₁ h₂ => ?_
  · rw [length_map, length_range, length_take, min_eq_left h]
  rw [length_map, length_range] at h₁
  rw [getElem_map, getElem_range, getElem_take, getD_eq_getElem?_getD,
    List.getElem?_eq_getElem (by omega), Option.getD_some]

theorem lock_write (inv : IoInv io) (pend : Pending io log)
    (hlen : if io.write.retryBytes = 0 then 0 < length ∧ length ≤ io.write.buffer.unread.length
      else length = io.write.retryBytes) :
    (io.write.lock true length).buffer = io.write.buffer ∧ (io.write.lock true length).retryBytes = length ∧
      0 < length ∧ length ≤ io.write.buffer.unread.length ∧
      (List.range length).map (io.write.lock true length).scratch = io.write.buffer.unread.take length ∧
      ∀ pending, pendingWrite log = some pending → io.write.buffer.unread.take length = pending := by
  unfold Channel.lock
  by_cases hretry : io.write.retryBytes = 0
  · rw [if_pos hretry] at hlen
    obtain ⟨hpos, hle⟩ := hlen
    rw [if_neg (not_not.mpr hretry)]
    refine ⟨rfl, rfl, hpos, hle, ?_, fun pending hp => ?_⟩
    · show (List.range length).map (fun i => if i < length then (io.write.buffer.peek.1.getD []).getD i 0
        else io.write.scratch i) = _
      rw [(peek_unread inv.write.inv).1, ← map_getD_range hle]
      exact map_congr_left fun i hi => if_pos (mem_range.mp hi)
    · rw [pend.last, if_pos hretry] at hp
      cases hp
  · rw [if_neg hretry] at hlen
    subst hlen
    rw [if_pos hretry]
    refine ⟨rfl, rfl, Nat.pos_of_ne_zero hretry, inv.writeRetry, pend.front, fun pending hp => ?_⟩
    rw [pend.last, if_neg hretry] at hp
    rw [← pend.front]
    exact Option.some.inj hp

theorem toNat_ofNat_fits (inv : b.Inv) (h : n ≤ b.capacity.toNat) : (UInt64.ofNat n).toNat = n := by
  obtain ⟨-, -, hcap⟩ := inv.bounds
  exact UInt64.toNat_ofNat_of_lt' (lt_of_le_of_lt (h.trans hcap) (by decide))

theorem commit_write (ch : Channel) (h : Fifo ch.buffer capacity) (hle : n ≤ ch.buffer.unread.length) :
    (commit ch true n).1 = .ok ∧ Fifo (commit ch true n).2 capacity ∧
      (commit ch true n).2.unread = ch.buffer.unread.drop n := by
  have hn := toNat_ofNat_fits h.inv (hle.trans (length_unread_le h.inv))
  have hok : (commit ch true n).1 = .ok := consume_fits h.inv _ (by rw [hn]; exact hle)
  rcases leaves_consume h.inv (UInt64.ofNat n) with ⟨hne, -⟩ | ⟨-, hinv, hunread⟩
  · exact absurd hok hne
  · rw [hn] at hunread
    exact ⟨hok, ⟨hinv, (congrArg UInt64.toNat (capacity_consume _)).trans h.capacity⟩, hunread⟩

theorem commit_read (ch : Channel) (h : Fifo ch.buffer capacity) (hfit : ch.buffer.unread.length + n ≤ capacity) :
    (commit ch false n).1 = .ok ∧ Fifo (commit ch false n).2 capacity ∧
      (commit ch false n).2.unread = ch.buffer.unread ++ (List.range n).map ch.scratch := by
  have hn := toNat_ofNat_fits h.inv (by rw [h.capacity]; omega : n ≤ ch.buffer.capacity.toNat)
  obtain ⟨hok, hinv, hcap, hunread⟩ := appendCompacting_fits h.inv (some ch.scratch) (UInt64.ofNat n)
    (fun hnull => nomatch hnull.2) (by rw [hn, h.capacity]; exact hfit)
  refine ⟨hok, ⟨hinv, (congrArg UInt64.toNat hcap).trans h.capacity⟩, ?_⟩
  unfold commit
  rw [if_neg (by decide), hunread, bytesAt, hn]

theorem flatMap_snoc {α β : Type*} (f : α → List β) (l : List α) (a : α) :
    (l ++ [a]).flatMap f = l.flatMap f ++ f a := by
  rw [flatMap_append, flatMap_singleton]

theorem settle_confirmed (h : (commit ch writing bytes.length).1 = .ok) :
    settle writing r io ch (.confirmed bytes) = (.again bytes.length, io.setChannel writing { ch with
        buffer := (commit ch writing bytes.length).2
        scratch := fun _ => 0
        retryBytes := 0
        wait := .none }) := by
  rw [settle]
  rw [if_neg (not_not.mpr h)]

theorem writeRound_keeps (inv : IoInv io) (acc : Accounts io log) (pend : Pending io log)
    (hopen : io.state = .opened) (hread : io.read.wait ≠ .write)
    (hlen : if io.write.retryBytes = 0 then 0 < length ∧ length ≤ io.write.buffer.unread.length
      else length = io.write.retryBytes) (r : NativeReply) :
    Drives true io (driveRound true length r io).2.1 (log ++ [(driveRound true length r io).2.2]) := by
  obtain ⟨hbuffer, hretry, hpos, hle, hdata, hsame⟩ := lock_write inv pend hlen
  have hwrite := inv.write
  have hstable : ∀ outcome, Lawful RetriesSame
      (log ++ [.write ((List.range length).map (io.write.lock true length).scratch) outcome]) := fun outcome =>
    acc.stable.snoc fun pending hp => hdata.trans (hsame pending hp)
  have hsent := acc.sent
  have hfree : decide (io.read.wait = .write) = false := decide_eq_false hread
  have henabled : io.state ≠ .disabled := by rw [hopen]; decide
  show Drives true io (settle true r io { io.write.lock true length with resume := false }
      (r.outcome true length (io.write.lock true length).scratch)).2
    (log ++ [.write ((List.range length).map (io.write.lock true length).scratch)
      (r.outcome true length (io.write.lock true length).scratch)])
  generalize io.write.lock true length = locked at *
  rw [← hbuffer] at hdata hle hwrite hsent
  -- a write only adds to what is confirmed as written
  have hgot : ∀ outcome, (log ++ [write ((List.range length).map locked.scratch) outcome]).flatMap
        received =
      (log ++ [write ((List.range length).map locked.scratch) outcome]).flatMap consumed ++
        io.read.buffer.unread := by
    intro outcome
    rw [flatMap_snoc, flatMap_snoc, acc.got]
    simp [received, consumed]
  cases houtcome : r.outcome true length locked.scratch with
  | confirmed bytes =>
    obtain ⟨hbytes, -, hfull⟩ := outcome_confirmed houtcome
    rw [hfull rfl, hdata] at hbytes
    obtain ⟨hok, hfifo, hunread⟩ := commit_write { locked with resume := false } hwrite
      (n := bytes.length) (by rw [hfull rfl]; exact hle)
    rw [settle_confirmed hok]
    refine ⟨{ inv with
        write := hfifo, writeRetry := Nat.zero_le _, writeWait := fun _ => ⟨fun _ => rfl, fun _ => rfl⟩,
        alone := fun _ _ => hfree }, ⟨?_, hgot _, hstable _⟩, rfl, fun _ => ⟨hopen, ⟨?_, rfl⟩, hfree⟩⟩
    · show _ = _ ++ (commit _ true _).2.unread
      rw [flatMap_snoc, flatMap_snoc, hsent, hunread, hfull rfl, hbytes]
      simp [enqueued, written]
    · rw [pendingWrite_snoc]
      rfl
  | want direction =>
    unfold settle
    have hwant : length = 0 ↔ direction = .none :=
      ⟨fun h => absurd h hpos.ne', fun h => absurd h (outcome_want houtcome)⟩
    refine ⟨{ inv with
        write := hwrite, writeRetry := hretry.le.trans hle, writeWait := fun _ => ?_,
        alone := fun _ _ => hfree }, ⟨?_, hgot _, hstable _⟩, rfl, fun _ => ⟨hopen, ⟨?_, ?_⟩, hfree⟩⟩
    · show locked.retryBytes = 0 ↔ _
      rw [hretry]
      exact hwant
    · rw [flatMap_snoc, flatMap_snoc, hsent]
      simp [enqueued, written, IoStorage.setChannel]
    · rw [pendingWrite_snoc]
      show some _ = if locked.retryBytes = 0 then none else some ((List.range locked.retryBytes).map locked.scratch)
      rw [hretry, if_neg hpos.ne']
    · show (List.range locked.retryBytes).map locked.scratch = locked.buffer.unread.take locked.retryBytes
      rw [hretry]
      exact hdata
  | peerEof => cases outcome_peerEof houtcome
  | fatal =>
    unfold settle
    refine ⟨⟨inv.read, hwrite, inv.readRetry, hretry.le.trans hle, fun h => absurd rfl h, fun h => absurd rfl h,
      fun h => absurd rfl h, fun _ => inv.options henabled⟩, ⟨?_, hgot _, hstable _⟩, rfl, fun h => absurd rfl h⟩
    show _ = _ ++ locked.buffer.unread
    rw [flatMap_snoc, flatMap_snoc, hsent]
    simp [enqueued, written]

theorem lock_read (inv : IoInv io) (hlen : if io.read.retryBytes = 0 then
        0 < length ∧ length + io.read.buffer.unread.length ≤ io.options.readCapacity
      else length = io.read.retryBytes) :
    (io.read.lock false length).buffer = io.read.buffer ∧ (io.read.lock false length).retryBytes = length ∧
      0 < length ∧ length + io.read.buffer.unread.length ≤ io.options.readCapacity := by
  unfold Channel.lock
  by_cases hretry : io.read.retryBytes = 0
  · rw [if_pos hretry] at hlen
    rw [if_neg (not_not.mpr hretry)]
    exact ⟨rfl, rfl, hlen⟩
  · rw [if_neg hretry] at hlen
    subst hlen
    rw [if_pos hretry]
    exact ⟨rfl, rfl, Nat.pos_of_ne_zero hretry, inv.readRetry⟩

theorem readRound_keeps (inv : IoInv io) (acc : Accounts io log) (pend : Pending io log)
    (hopen : io.state = .opened) (hwrite : io.write.retryBytes = 0) (hlen : if io.read.retryBytes = 0 then
        0 < length ∧ length + io.read.buffer.unread.length ≤ io.options.readCapacity
      else length = io.read.retryBytes) (r : NativeReply) :
    Drives false io (driveRound false length r io).2.1 (log ++ [(driveRound false length r io).2.2]) := by
  obtain ⟨hbuffer, hretry, hpos, hfit⟩ := lock_read inv hlen
  have hread := inv.read
  have hgot := acc.got
  have hfree : decide (io.write.retryBytes ≠ 0) = false := decide_eq_false (not_not.mpr hwrite)
  have henabled : io.state ≠ .disabled := by rw [hopen]; decide
  have hblocked : decide (io.write.retryBytes ≠ 0) = true → ∀ {p : Prop}, p := fun h => by rw [hfree] at h; cases h
  show Drives false io (settle false r io { (io.read.lock false length).fill false length r.memory with resume := false }
      (r.outcome false length ((io.read.lock false length).fill false length r.memory).scratch)).2
    (log ++ [.read length (r.outcome false length ((io.read.lock false length).fill false length r.memory).scratch)])
  have hfill : ((io.read.lock false length).fill false length r.memory).buffer = io.read.buffer ∧
      ((io.read.lock false length).fill false length r.memory).retryBytes = length := ⟨hbuffer, hretry⟩
  generalize (io.read.lock false length).fill false length r.memory = filled at *
  obtain ⟨hsame, hlength⟩ := hfill
  rw [← hsame] at hread hgot hfit
  -- a read touches neither the write FIFO nor the unfinished write
  have hstable : ∀ outcome, Lawful RetriesSame (log ++ [.read length outcome]) := fun outcome =>
    acc.stable.snoc trivial
  have hlast : ∀ outcome, pendingWrite (log ++ [.read length outcome]) =
      if io.write.retryBytes = 0 then none else some io.write.request := fun outcome =>
    (pendingWrite_snoc ..).trans pend.last
  have hsent : ∀ outcome, (log ++ [Event.read length outcome]).flatMap enqueued =
      (log ++ [Event.read length outcome]).flatMap written ++ io.write.buffer.unread := by
    intro outcome
    rw [flatMap_snoc, flatMap_snoc, acc.sent]
    simp [enqueued, written]
  cases houtcome : r.outcome false length filled.scratch with
  | confirmed bytes =>
    obtain ⟨hbytes, hle, -⟩ := outcome_confirmed houtcome
    obtain ⟨hok, hfifo, hunread⟩ := commit_read { filled with resume := false } hread
      (n := bytes.length) (by
        show filled.buffer.unread.length + bytes.length ≤ _
        omega)
    have hroom := length_unread_le hfifo.inv
    rw [hfifo.capacity] at hroom
    rw [settle_confirmed hok]
    refine ⟨{ inv with
        read := hfifo, readRetry := ?_, readWait := fun _ => ⟨fun _ => rfl, fun _ => rfl⟩,
        alone := fun _ h => hblocked h }, ⟨hsent _, ?_, hstable _⟩, rfl,
      fun _ => ⟨hopen, ⟨hlast _, pend.front⟩, hfree⟩⟩
    · exact (Nat.zero_add _).le.trans hroom
    show _ = _ ++ (commit _ false _).2.unread
    rw [flatMap_snoc, flatMap_snoc, hgot, hunread, ← hbytes]
    simp [received, consumed]
  | want direction =>
    unfold settle
    refine ⟨{ inv with
        read := hread, readRetry := hlength.symm ▸ hfit, readWait := fun _ => ?_,
        alone := fun _ h => hblocked h }, ⟨hsent _, ?_, hstable _⟩, rfl,
      fun _ => ⟨hopen, ⟨hlast _, pend.front⟩, hfree⟩⟩
    · show filled.retryBytes = 0 ↔ direction = .none
      rw [hlength]
      exact ⟨fun h => absurd h hpos.ne', fun h => absurd h (outcome_want houtcome)⟩
    · show _ = _ ++ filled.buffer.unread
      rw [flatMap_snoc, flatMap_snoc, hgot]
      simp [received, consumed]
  | peerEof =>
    unfold settle
    refine ⟨{ inv with
        read := hread, readRetry := ?_, readWait := fun _ => ⟨fun _ => rfl, fun _ => rfl⟩,
        alone := fun _ h => hblocked h }, ⟨hsent _, ?_, hstable _⟩, rfl,
      fun _ => ⟨hopen, ⟨hlast _, pend.front⟩, hfree⟩⟩
    · show 0 + filled.buffer.unread.length ≤ _
      exact (Nat.add_le_add_right (Nat.zero_le length) _).trans hfit
    · show _ = _ ++ filled.buffer.unread
      rw [flatMap_snoc, flatMap_snoc, hgot]
      simp [received, consumed]
  | fatal =>
    unfold settle
    refine ⟨⟨hread, inv.write, hlength.symm ▸ hfit, inv.writeRetry, fun h => absurd rfl h, fun h => absurd rfl h,
      fun h => absurd rfl h, fun _ => inv.options henabled⟩, ⟨hsent _, ?_, hstable _⟩, rfl, fun h => absurd rfl h⟩
    show _ = _ ++ filled.buffer.unread
    rw [flatMap_snoc, flatMap_snoc, hgot]
    simp [received, consumed]

/-! ## 5. A drive -/

/-- What the driver starts a round with. -/
structure Ready (writing : Bool) (budget : IoBudget) (io : IoStorage) (p : IoProgress) (log : List Event) :
    Prop where
  inv : IoInv io
  accounts : Accounts io log
  pending : Pending io log
  opened : io.state = .opened
  free : io.blocks (!writing) = false
  budget : (io.channel writing).retryBytes + p.bytes ≤ budget.maxBytes

theorem driveStop_none {writing : Bool} (h : driveStop budget writing closing io p = none) :
    ((io.channel writing).retryBytes = 0 →
      if writing then readable io.write.buffer ≠ 0 else readable io.read.buffer ≠ io.options.readCapacity) ∧
      p.bytes ≠ budget.maxBytes := by
  rw [driveStop] at h
  by_cases heof : writing = false ∧ io.readEof = true
  · rw [if_pos heof] at h
    cases h
  · rw [if_neg heof] at h
    by_cases hroom : (io.channel writing).retryBytes = 0 ∧
        (if writing = true then readable (io.channel writing).buffer = 0
          else readable (io.channel writing).buffer = io.options.readCapacity)
    · rw [if_pos hroom] at h
      cases h
    · rw [if_neg hroom] at h
      refine ⟨fun hretry => ?_, fun hbytes => ?_⟩
      · have hne := fun hfull => hroom ⟨hretry, hfull⟩
        cases writing <;> exact hne
      · rw [if_pos hbytes] at h
        split at h <;> cases h

theorem Ready.request {writing : Bool} (h : Ready writing budget io p log)
    (hgo : driveStop budget writing closing io p = none) :
    (if (io.channel writing).retryBytes = 0 then
        0 < requestLength budget writing io p ∧ requestLength budget writing io p ≤
            if writing then readable io.write.buffer else io.options.readCapacity - readable io.read.buffer
      else requestLength budget writing io p = (io.channel writing).retryBytes) ∧
      requestLength budget writing io p + p.bytes ≤ budget.maxBytes := by
  have hbudget := h.budget
  obtain ⟨hroom, hleft⟩ := driveStop_none hgo
  unfold requestLength
  by_cases hretry : (io.channel writing).retryBytes = 0
  · have hroom := hroom hretry
    have hscratch : 0 < scratchBytes := by decide
    have hread := length_unread_le h.inv.read.inv
    rw [h.inv.read.capacity, ← readable_eq h.inv.read.inv] at hread
    rw [if_pos hretry, if_neg (not_not.mpr hretry)]
    rw [hretry] at hbudget
    cases writing with
    | true =>
      have hqueued : readable io.write.buffer ≠ 0 := hroom
      simp only [IoStorage.channel, if_true]
      omega
    | false =>
      have hspace : readable io.read.buffer ≠ io.options.readCapacity := hroom
      simp only [IoStorage.channel, Bool.false_eq_true, if_false]
      omega
  · rw [if_neg hretry, if_pos hretry]
    exact ⟨rfl, hbudget⟩

theorem driveRound_again {bytes : Nat} (h : (driveRound writing length r io).1 = .again bytes) :
    bytes ≤ length ∧ ((driveRound writing length r io).2.1.channel writing).retryBytes = 0 ∧
      (driveRound writing length r io).2.1.state = io.state := by
  unfold driveRound at h ⊢
  dsimp only at h ⊢
  cases houtcome : r.outcome writing length (((io.channel writing).lock writing length).fill writing length
      r.memory).scratch with
  | confirmed sent =>
    rw [houtcome] at h
    obtain ⟨-, hle, -⟩ := outcome_confirmed houtcome
    by_cases hok : (commit { ((io.channel writing).lock writing length).fill writing length r.memory with
        resume := false } writing sent.length).1 = .ok
    · rw [settle_confirmed hok] at h ⊢
      cases h
      cases writing <;> exact ⟨hle, rfl, rfl⟩
    · rw [settle] at h
      rw [if_pos hok] at h
      cases h
  | want direction => rw [houtcome] at h; cases h
  | peerEof => rw [houtcome] at h; cases h
  | fatal => rw [houtcome] at h; cases h

theorem Ready.round {writing : Bool} (h : Ready writing budget io p log)
    (hgo : driveStop budget writing closing io p = none) (r : NativeReply) :
    Drives writing io (driveRound writing (requestLength budget writing io p) r io).2.1
      (log ++ [(driveRound writing (requestLength budget writing io p) r io).2.2]) := by
  have hlen := (h.request hgo).1
  have hfree := h.free
  cases writing with
  | true =>
    refine writeRound_keeps h.inv h.accounts h.pending h.opened (of_decide_eq_false hfree) ?_ r
    rw [← readable_eq h.inv.write.inv]
    exact hlen
  | false =>
    have hle := length_unread_le h.inv.read.inv
    rw [h.inv.read.capacity] at hle
    refine readRound_keeps h.inv h.accounts h.pending h.opened (not_not.mp (of_decide_eq_false hfree)) ?_ r
    have hchannel : io.channel false = io.read := rfl
    rw [hchannel] at hlen
    split at hlen
    · rename_i hretry
      rw [if_pos hretry]
      have hspace := hlen.2
      rw [if_neg (by decide), readable_eq h.inv.read.inv] at hspace
      exact ⟨hlen.1, by omega⟩
    · rename_i hretry
      rw [if_neg hretry]
      exact hlen

theorem Ready.halt (h : Ready writing budget io p log) (stop : IoStop × Bool) :
    Drives writing io (driveHalt writing io p stop).io (log ++ (driveHalt writing io p stop).events) := by
  obtain ⟨inv, acc, pend, hopen, hfree, -⟩ := h
  show Drives writing io (io.setChannel writing { io.channel writing with resume := stop.2 }) (log ++ [])
  rw [List.append_nil]
  cases writing <;> exact ⟨{ inv with }, { acc with }, rfl, fun _ => ⟨hopen, { pend with }, hfree⟩⟩

theorem driveLoop_keeps (closing : Bool) (budget : IoBudget) (ops : Nat → NativeReply) (left : Nat) :
    ∀ {io : IoStorage} {p : IoProgress} {log : List Event}, Ready writing budget io p log →
      Drives writing io (driveLoop budget writing closing ops left io p).io
        (log ++ (driveLoop budget writing closing ops left io p).events) := by
  induction left with
  | zero =>
    intro io p log h
    exact h.halt _
  | succ left ih =>
    intro io p log h
    unfold driveLoop
    split
    · exact h.halt _
    rename_i hgo
    dsimp only
    split
    · obtain ⟨inv, acc, pend, hopen, hfree, -⟩ := h
      show Drives writing io io (log ++ [])
      rw [List.append_nil]
      exact ⟨inv, acc, rfl, fun _ => ⟨hopen, pend, hfree⟩⟩
    · have hround := h.round hgo (ops p.nativeCalls)
      have hbudget := (h.request hgo).2
      cases hout : driveRound writing (requestLength budget writing io p) (ops p.nativeCalls) io with
      | mk round rest =>
        obtain ⟨io', event⟩ := rest
        rw [hout] at hround
        cases round with
        | again bytes =>
          obtain ⟨hle, hretry, hstate⟩ := driveRound_again (congrArg Prod.fst hout)
          rw [hout] at hretry hstate
          rw [h.opened] at hstate
          have hstate : io'.state ≠ .failed := by rw [hstate]; decide
          obtain ⟨hopen, hpend, hfree⟩ := hround.live hstate
          have hrest := @ih io' { p with nativeCalls := p.nativeCalls + 1, bytes := p.bytes + bytes } _
            ⟨hround.inv, hround.accounts, hpend, hopen, hfree, by rw [hretry]; dsimp only; omega⟩
          dsimp only
          rw [append_cons]
          exact { hrest with options := hrest.options.trans hround.options }
        | stop reason wait => exact hround
        | fatal result error => exact hround

end Invariants

end Vireo.Net.Tls
