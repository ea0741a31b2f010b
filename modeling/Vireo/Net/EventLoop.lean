/-
  File:      Vireo/Net/EventLoop.lean
  Subject:   THE EVENT LOOP (`src/net/event_loop.c`): its registrations, and the rounds that dispatch
             events to them.

  The NULL checks and the errno of the kernel are left out. What the kernel answers is passed in, and so is
  what a callback does: any sequence of calls on the loop. A nested run is refused and does nothing, and
  `vireo_event_loop_run` is a sequence of rounds.
-/
import Vireo.Lib.FreeList
import Vireo.Base.Pool

namespace Vireo.Net

open Base Lib Function

/-! ## 1. The registrations -/

/-- `vireo_event_loop_registration_t`; `β` is the callback with its context, none the null callback. -/
structure LoopRegistration (β : Type) where
  fd : Int
  interests : UInt32
  callback : Option β

/-- `registration_record_t`. -/
structure LoopRecord (β : Type) where
  registration : LoopRegistration β
  token : UInt64
  nextFree : UInt64
  active : Bool

/-- A record that is free, in front of `nextFree`. -/
def LoopRecord.free {β : Type} (nextFree : UInt64) : LoopRecord β := ⟨⟨0, 0, none⟩, 0, nextFree, false⟩

/-- `vireo_event_loop_handle_t`. -/
structure LoopHandle where
  loopId : UInt64
  token : UInt64

/-- `struct vireo_event_loop`; `records i` is meaningful for `i < registrationCapacity`. -/
structure EventLoop (β : Type) where
  eventCapacity : UInt64
  registrationCapacity : UInt64
  loopId : UInt64
  records : UInt64 → LoopRecord β
  freeHead : UInt64
  lastSerial : UInt64
  registeredCount : Nat
  availableCount : Nat
  runActive : Bool
  stopRequested : Bool

/-- `vireo_event_loop_stage_t`. -/
inductive EventLoopStage where
  | none
  | allocateControl
  | allocateEvents
  | allocateRegistrations
  | createEpoll
  | inspectEpoll
  | issueId
  | add
  | mod
  | del
  | wait
  | dispatch
  | wakeCreate
  | wakeRegister
  | wakeRead
deriving DecidableEq

/-- `SLOT_MASK`. -/
def slotMask : UInt64 := 65535

/-- `SERIAL_MAX`. -/
def serialMax : UInt64 := 281474976710655

/-- `VIREO_EPOLL_INTEREST_READ`. -/
def epollRead : UInt32 := 1
/-- `VIREO_EPOLL_INTEREST_WRITE`. -/
def epollWrite : UInt32 := 2
/-- `VIREO_EPOLL_INTEREST_PEER_WRITE_CLOSED`. -/
def epollPeerWriteClosed : UInt32 := 4

/-- `VIREO_EPOLL_EVENT_READ`. -/
def eventRead : UInt32 := 1
/-- `VIREO_EPOLL_EVENT_WRITE`. -/
def eventWrite : UInt32 := 2
/-- `VIREO_EPOLL_EVENT_PEER_WRITE_CLOSED`. -/
def eventPeerWriteClosed : UInt32 := 4
/-- `VIREO_EPOLL_EVENT_ERROR`. -/
def eventError : UInt32 := 8
/-- `VIREO_EPOLL_EVENT_HANGUP`. -/
def eventHangup : UInt32 := 16

/-- `valid_interests`. -/
def loopInterests (interests : UInt32) : Bool :=
  interests &&& ~~~(epollRead ||| epollWrite ||| epollPeerWriteClosed) = 0

/-- `vireo_event_loop_options_t`. -/
structure EventLoopOptions where
  eventCapacity : UInt64
  maxMemoryBytes : UInt64
  registrationCapacity : UInt64

/-- What the resources of a new loop come to: the three allocations, the epoll, the pipe, and its
    registration. -/
structure EventLoopResources where
  control : Bool
  events : Bool
  registrations : Bool
  epoll : Result
  epollBytes : Option UInt64
  pipe : Bool
  wake : Result

namespace EventLoop

/-- `sizeof(vireo_epoll_event_t)` on LP64. -/
def eventBytes : UInt64 := 16

/-- `sizeof(registration_record_t)` on LP64. -/
def recordBytes : UInt64 := 48

/-- `sizeof(vireo_event_loop_t)` on LP64. -/
def controlBytes : UInt64 := 264

/-- `VIREO_EVENT_LOOP_MAX_EVENTS`, also `VIREO_EVENT_LOOP_MAX_REGISTRATIONS`. -/
def maxEvents : UInt64 := 65536

/-- `VIREO_EVENT_LOOP_MAX_MEMORY`. -/
def maxMemory : UInt64 := 67108864

variable {β : Type}

/-- The candidate that `vireo_event_loop_create_with_counter` publishes: every record free, in order. -/
def fresh (options : EventLoopOptions) (loopId : UInt64) : EventLoop β where
  eventCapacity := options.eventCapacity
  registrationCapacity := options.registrationCapacity
  loopId := loopId
  records i := .free (i + 1)
  freeHead := 0
  lastSerial := 0
  registeredCount := 0
  availableCount := options.registrationCapacity.toNat
  runActive := false
  stopRequested := false

/-- `vireo_event_loop_create_with_counter`; `source` is the counter of identities. -/
def create (options : EventLoopOptions) (source : UInt64) (resources : EventLoopResources) :
    Except (Result × EventLoopStage) (EventLoop β) :=
  if options.eventCapacity = 0 ∨ options.registrationCapacity = 0 ∨ options.maxMemoryBytes = 0 then
    .error (.invalidArgument, .none)
  else
    match checkedU64Mul options.eventCapacity eventBytes with
    | .error e => .error (e, .none)
    | .ok eventsBytes =>
      match checkedU64Mul options.registrationCapacity recordBytes with
      | .error e => .error (e, .none)
      | .ok registrationsBytes =>
        match checkedU64Add controlBytes eventsBytes with
        | .error e => .error (e, .none)
        | .ok partBytes =>
          match checkedU64Add partBytes registrationsBytes with
          | .error e => .error (e, .none)
          | .ok loopBytes =>
            if options.eventCapacity > maxEvents ∨ options.registrationCapacity > maxEvents ∨
                options.maxMemoryBytes > maxMemory ∨ loopBytes ≥ options.maxMemoryBytes then
              .error (.range, .none)
            else
              match ObjectPool.claimIdentity source with
              | .error e => .error (e, .issueId)
              | .ok loopId =>
                if resources.control = false then .error (.noMemory, .allocateControl)
                else if resources.events = false then .error (.noMemory, .allocateEvents)
                else if resources.registrations = false then .error (.noMemory, .allocateRegistrations)
                else if resources.epoll ≠ .ok then .error (resources.epoll, .createEpoll)
                else
                  match resources.epollBytes with
                  | none => .error (.internal, .inspectEpoll)
                  | some epollBytes =>
                    if epollBytes > options.maxMemoryBytes - loopBytes then .error (.internal, .inspectEpoll)
                    else if resources.pipe = false then .error (.io, .wakeCreate)
                    else if resources.wake ≠ .ok then .error (resources.wake, .wakeRegister)
                    else .ok (fresh options loopId)

/-- `find_registration`. -/
def findRegistration (l : EventLoop β) (handle : LoopHandle) : Except Result UInt64 :=
  if handle.loopId = 0 ∧ handle.token = 0 then .error .notFound
  else if handle.loopId ≠ l.loopId ∨ handle.token = 0 ∨ handle.token >>> 16 = 0 then .error .invalidArgument
  else
    let index := handle.token &&& slotMask
    if index ≥ l.registrationCapacity then .error .range
    else if (l.records index).active = false ∨ (l.records index).token ≠ handle.token then .error .notFound
    else .ok index

/-- Another registration has this descriptor. -/
def fdRegistered (l : EventLoop β) (fd : Int) : Bool :=
  (List.range l.registrationCapacity.toNat).any fun i =>
    (l.records (UInt64.ofNat i)).active && (l.records (UInt64.ofNat i)).registration.fd = fd

/-- The token of the next registration. -/
def nextToken (l : EventLoop β) : UInt64 := (l.lastSerial + 1) <<< 16 ||| l.freeHead

end EventLoop

/-- What a call on the registrations returns and leaves, and the token that it asked the kernel to register. -/
structure LoopCallOutcome (β : Type) where
  result : Result
  stage : EventLoopStage
  handle : LoopHandle
  loop : EventLoop β
  token : Option UInt64

namespace EventLoop

variable {β : Type}

variable (l : EventLoop β)

/-- A call that leaves everything as it is. -/
def refuse (result : Result) (stage : EventLoopStage) (handle : LoopHandle) :
    LoopCallOutcome β := ⟨result, stage, handle, l, none⟩

/-- `vireo_event_loop_add`; `out` is what stands where the handle goes, `kernel` what the kernel answers. -/
def add (registration : LoopRegistration β) (out : LoopHandle) (kernel : Result) :
    LoopCallOutcome β :=
  if out.loopId ≠ 0 ∨ out.token ≠ 0 ∨ registration.fd < 0 ∨ registration.callback.isNone ∨
      loopInterests registration.interests = false then l.refuse .invalidArgument .none out
  else if l.fdRegistered registration.fd then l.refuse .busy .none out
  else if l.freeHead = l.registrationCapacity then l.refuse .busy .none out
  else if l.lastSerial = serialMax then l.refuse .overflow .none out
  else
    let token := l.nextToken
    let issued := { l with lastSerial := l.lastSerial + 1 }
    if kernel ≠ .ok then ⟨kernel, .add, out, issued, some token⟩
    else
      let record := l.records l.freeHead
      ⟨.ok, .none, ⟨l.loopId, token⟩, { issued with
        freeHead := record.nextFree
        records := update l.records l.freeHead ⟨registration, token, 0, true⟩
        registeredCount := l.registeredCount + 1
        availableCount := l.availableCount - 1 }, some token⟩

/-- `vireo_event_loop_mod`. -/
def mod (handle : LoopHandle) (interests : UInt32) (kernel : Result) : LoopCallOutcome β :=
  if loopInterests interests = false then l.refuse .invalidArgument .none handle
  else
    match l.findRegistration handle with
    | .error e => l.refuse e .none handle
    | .ok index =>
      if kernel ≠ .ok then l.refuse kernel .mod handle
      else
        let record := l.records index
        ⟨.ok, .none, handle, { l with
          records := update l.records index
            { record with registration := { record.registration with interests := interests } } }, none⟩

/-- `vireo_event_loop_del`. -/
def del (handle : LoopHandle) (kernel : Result) : LoopCallOutcome β :=
  match l.findRegistration handle with
  | .error e => l.refuse e .none handle
  | .ok index =>
    if kernel ≠ .ok then l.refuse kernel .del handle
    else
      ⟨.ok, .none, ⟨0, 0⟩, { l with
        records := update l.records index (.free l.freeHead)
        freeHead := index
        registeredCount := l.registeredCount - 1
        availableCount := l.availableCount + 1 }, none⟩

/-- `vireo_event_loop_request_stop`, whatever its notice comes to. -/
def requestStop : EventLoop β := { l with stopRequested := true }

end EventLoop

/-! ## 2. A round -/

/-- `vireo_epoll_event_t`. -/
structure EpollEvent where
  token : UInt64
  events : UInt32
deriving DecidableEq

/-- The events that go to a registration with these interests. -/
def allowedEvents (interests : UInt32) : UInt32 :=
  eventError ||| eventHangup |||
    (if interests &&& epollRead ≠ 0 then eventRead else 0) |||
    (if interests &&& epollWrite ≠ 0 then eventWrite else 0) |||
    (if interests &&& epollPeerWriteClosed ≠ 0 then eventPeerWriteClosed else 0)

/-- `filter_events`. -/
def filterEvents (interests events : UInt32) : UInt32 := events &&& allowedEvents interests

/-- The known events. -/
def knownEvents : UInt32 := eventRead ||| eventWrite ||| eventPeerWriteClosed ||| eventError ||| eventHangup

/-- `vireo_event_loop_run_info_t`. -/
structure LoopRunInfo where
  readyCount : Nat
  dispatchedCount : Nat
  staleCount : Nat
  filteredCount : Nat
deriving DecidableEq

def LoopRunInfo.zero : LoopRunInfo := ⟨0, 0, 0, 0⟩

/-- A call on the loop, with what the kernel answers. -/
inductive LoopCall (β : Type) where
  | add (registration : LoopRegistration β) (out : LoopHandle) (kernel : Result)
  | mod (handle : LoopHandle) (interests : UInt32) (kernel : Result)
  | del (handle : LoopHandle) (kernel : Result)
  | requestStop

/-- A token that was issued: what it was issued for, and whether the kernel took it. -/
structure LoopIssue (β : Type) where
  token : UInt64
  registration : LoopRegistration β
  taken : Bool

/-- A callback that was called: the event, the loop at that moment, and what the callback was given. -/
structure LoopDispatch (β : Type) where
  event : EpollEvent
  loop : EventLoop β
  handle : LoopHandle
  binding : LoopRegistration β
  events : UInt32

/-- The loop with its history, newest first. -/
structure LoopSystem (β : Type) where
  loop : EventLoop β
  issued : List (LoopIssue β)
  dispatched : List (LoopDispatch β)
  rounds : List LoopRunInfo

/-- An event of a batch, with what its callback does when it is called. -/
abbrev LoopBatch (β : Type) := List (EpollEvent × List (LoopCall β))

namespace LoopSystem

variable {β : Type}

variable (s : LoopSystem β)

/-- One call on the loop. -/
def call : LoopCall β → LoopSystem β
  | .add registration out kernel =>
    let o := s.loop.add registration out kernel
    { s with
      loop := o.loop
      issued := (o.token.map fun token => ⟨token, registration, o.result = .ok⟩).toList ++ s.issued }
  | .mod handle interests kernel => { s with loop := (s.loop.mod handle interests kernel).loop }
  | .del handle kernel => { s with loop := (s.loop.del handle kernel).loop }
  | .requestStop => { s with loop := s.loop.requestStop }

/-- The check of the whole batch: whether the pipe is among the events. -/
def checkBatch (capacity : UInt64) (wake : Bool) : List EpollEvent → Except (Result × EventLoopStage) Bool
  | [] => .ok wake
  | event :: rest =>
    if event.events &&& ~~~knownEvents ≠ 0 then .error (.internal, .wait)
    else if event.token = 0 then
      if event.events ≠ eventRead then .error (.internal, .wakeRead) else checkBatch capacity true rest
    else if event.token >>> 16 = 0 ∨ event.token &&& slotMask ≥ capacity then .error (.internal, .dispatch)
    else checkBatch capacity wake rest

/-- One event of the walk. -/
def dispatchEvent (stats : LoopRunInfo) (event : EpollEvent) (calls : List (LoopCall β)) :
    LoopSystem β × LoopRunInfo :=
  if event.token = 0 then (s, stats)
  else
    let stats := { stats with readyCount := stats.readyCount + 1 }
    let record := s.loop.records (event.token &&& slotMask)
    if record.active = false ∨ record.token ≠ event.token then
      (s, { stats with staleCount := stats.staleCount + 1 })
    else
      let binding := record.registration
      let events := filterEvents binding.interests event.events
      if events = 0 then (s, { stats with filteredCount := stats.filteredCount + 1 })
      else
        let handle : LoopHandle := ⟨s.loop.loopId, event.token⟩
        let told := { s with dispatched := ⟨event, s.loop, handle, binding, events⟩ :: s.dispatched }
        (calls.foldl call told, { stats with dispatchedCount := stats.dispatchedCount + 1 })

/-- The walk over the batch. -/
def dispatchAll (s : LoopSystem β) (stats : LoopRunInfo) : LoopBatch β → LoopSystem β × LoopRunInfo
  | [] => (s, stats)
  | (event, calls) :: rest =>
    let o := s.dispatchEvent stats event calls
    o.1.dispatchAll o.2 rest

/-- The read of the pipe: what `read` returns, and the errno behind a -1. `EAGAIN` and `EWOULDBLOCK` are
    11. -/
def readWake (n : Int) (cause : Nat) : Except (Result × EventLoopStage) Unit :=
  if n = -1 ∧ cause ≠ 11 then .error (.io, .wakeRead)
  else if n < -1 ∨ n = 0 ∨ n > 64 then .error (.internal, .wakeRead)
  else .ok ()

/-- `run_round`: the result, the stage, and the system, in which a round that is completed is counted. -/
def runRound (wait : Except Failure (LoopBatch β)) (n : Int) (cause : Nat) :
    Result × EventLoopStage × LoopSystem β :=
  if s.loop.stopRequested then (.ok, .none, { s with rounds := .zero :: s.rounds })
  else
    match wait with
    | .error e => (e.val, .wait, s)
    | .ok batch =>
      if batch.length > s.loop.eventCapacity.toNat then (.internal, .wait, s)
      else
        match checkBatch s.loop.registrationCapacity false (batch.map Prod.fst) with
        | .error e => (e.1, e.2, s)
        | .ok wake =>
          match if wake then readWake n cause else .ok () with
          | .error e => (e.1, e.2, s)
          | .ok _ =>
            let o := s.dispatchAll .zero batch
            (.ok, .none, { o.1 with rounds := o.2 :: o.1.rounds })

/-- `vireo_event_loop_run_once`. -/
def runOnce (timeoutMs : Int) (wait : Except Failure (LoopBatch β)) (n : Int) (cause : Nat) :
    Result × EventLoopStage × LoopSystem β :=
  if timeoutMs < -1 then (.invalidArgument, .none, s)
  else if s.loop.runActive then (.busy, .none, s)
  else
    let o := { s with loop := { s.loop with runActive := true } }.runRound wait n cause
    (o.1, o.2.1, { o.2.2 with loop := { o.2.2.loop with runActive := false } })

end LoopSystem

/-! ## 3. The runs -/

/-- The states that are reached from a loop just created: calls from outside, and rounds. -/
inductive LoopRun (β : Type) : LoopSystem β → Prop
  | start {options : EventLoopOptions} {source : UInt64} {resources : EventLoopResources} {loop : EventLoop β}
      (h : EventLoop.create options source resources = .ok loop) : LoopRun β ⟨loop, [], [], []⟩
  | call {s : LoopSystem β} (run : LoopRun β s) (c : LoopCall β) : LoopRun β (s.call c)
  | round {s : LoopSystem β} (run : LoopRun β s) (timeoutMs : Int) (wait : Except Failure (LoopBatch β))
      (n : Int) (cause : Nat) : LoopRun β (s.runOnce timeoutMs wait n cause).2.2

end Vireo.Net
