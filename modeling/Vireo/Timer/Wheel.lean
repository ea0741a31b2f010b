/-
  File:      Vireo/Timer/Wheel.lean
  Subject:   THE TIMER WHEEL (`src/timer/wheel.c`, `wheel_registry.c`, `wheel_advance.c`,
             `wheel_shutdown.c`) as the code computes it, down to the intrusive links.

  Buckets, the pending ring and the ready ring are dummy heads; every registered timer is a node
  of a fixed table, linked into one of them. The owner calls of the `_runtime` entries stay parameters; the
  public entries pass the owner's own.

  Null pointers do not exist here, so the argument checks that only refuse them are left out;
  `errno` is restored by every entry and is left out too.
-/
import Vireo.Lib.Ring
import Vireo.Timer.Handle
import Vireo.Timer.Time

namespace Vireo.Timer

open Vireo.Lib Function

/-- The link cells of a wheel: the permanent dummies and the links inside the nodes. -/
inductive Link where
  | bucket (index : UInt64)
  | pending
  | ready
  | node (slot : UInt64)
deriving DecidableEq

/-- `vireo_timer_wheel_node_t` without its link. -/
structure TimerNode where
  handle : TimerHandle
  deadlineNs : UInt64
  dueTick : UInt64
  bucketIndex : UInt64
  ready : Bool

/-- A node that carries no timer. -/
def TimerNode.free : TimerNode := ⟨.empty, 0, 0, 0, false⟩

/-- `struct vireo_timer_wheel`; `nodes i` is meaningful for `i < timerCapacity`, the bucket
    dummies for indices below `bucketCount`. -/
structure Wheel where
  geometry : Geometry
  bucketCount : UInt64
  allocationBytes : UInt64
  maxMemoryBytes : UInt64
  owner : Option HandleOwner
  nodes : UInt64 → TimerNode
  timerCapacity : UInt64
  nodeBytes : UInt64
  registryBudget : UInt64
  links : Links Link
  latestNowNs : UInt64
  completedTick : UInt64
  processing : Bool
  readyCount : UInt64
  stopping : Bool
  shutdownCursor : UInt64

/-- `vireo_timer_wheel_timer_info_t`. -/
structure TimerInfo where
  deadlineNs : UInt64
  dueTick : UInt64
  bucketIndex : UInt64

/-- `vireo_timer_wheel_expired_t`, also the record of a timer cancelled by the shutdown. -/
structure Expired where
  handle : TimerHandle
  timer : TimerInfo

/-- `vireo_timer_wheel_progress_t`. -/
structure Progress where
  latestNowNs : UInt64
  targetTick : UInt64
  completedTick : UInt64
  processing : Bool
  readyCount : UInt64
  caughtUp : Bool
deriving DecidableEq

/-- `vireo_timer_wheel_advance_report_t`. -/
structure AdvanceReport where
  progress : Progress
  visitedTicks : Nat
  checkedNodes : Nat
deriving DecidableEq

/-- `vireo_timer_wheel_shutdown_report_t`. -/
structure ShutdownReport where
  scannedSlots : UInt64
  hasCancelled : Bool
  cancelled : Option Expired
  remainingCount : UInt64
  finished : Bool

/-- The owner's acquire as the `_runtime` entries take it. -/
abbrev AcquireFn := HandleOwner → Except Result (TimerHandle × HandleOwner)

/-- The owner's release as the `_runtime` entries take it. -/
abbrev ReleaseFn := HandleOwner → TimerHandle → Except Result HandleOwner

def TimerNode.info (n : TimerNode) : TimerInfo := ⟨n.deadlineNs, n.dueTick, n.bucketIndex⟩

namespace Wheel

/-! ## 1. Creation and the registry -/

/-- `VIREO_TIMER_WHEEL_MAX_BUCKETS`. -/
def maxBuckets : UInt64 := 65536

/-- `VIREO_TIMER_WHEEL_MAX_MEMORY`, also `VIREO_TIMER_WHEEL_REGISTRY_MAX_MEMORY`. -/
def maxMemory : UInt64 := 67108864

/-- `VIREO_TIMER_WHEEL_REGISTRY_MAX_CAPACITY`. -/
def maxCapacity : UInt64 := 65536

/-- `VIREO_TIMER_WHEEL_ADVANCE_MAX_BUDGET`. -/
def maxBudget : Nat := 65536

/-- `VIREO_TIMER_WHEEL_SHUTDOWN_MAX_SLOTS`. -/
def maxShutdownSlots : UInt64 := 65536

/-- `sizeof(vireo_timer_wheel_link_t)` on LP64. -/
def linkBytes : UInt64 := 16

/-- `sizeof(vireo_timer_wheel_t)` on LP64. -/
def controlBytes : UInt64 := 200

/-- `sizeof(vireo_timer_wheel_node_t)` on LP64. -/
def nodeSize : UInt64 := 72

/-- The candidate that `vireo_timer_wheel_create_runtime` publishes: every dummy a self ring. -/
def fresh (geometry : Geometry) (maxMemoryBytes totalBytes : UInt64) : Wheel where
  geometry := geometry
  bucketCount := geometry.bucketCount
  allocationBytes := totalBytes
  maxMemoryBytes := maxMemoryBytes
  owner := none
  nodes _ := .free
  timerCapacity := 0
  nodeBytes := 0
  registryBudget := 0
  links := ⟨id, id⟩
  latestNowNs := geometry.originNs
  completedTick := 0
  processing := false
  readyCount := 0
  stopping := false
  shutdownCursor := 0

/-- `vireo_timer_wheel_create_runtime`; `memory` says whether both allocations succeed. -/
def create (geometry : Geometry) (maxMemoryBytes : UInt64) (memory : Bool) :
    Except Result Wheel :=
  if geometry.tickNs = 0 ∨ geometry.bucketCount = 0 ∨ maxMemoryBytes = 0 then
    .error .invalidArgument
  else
    match checkedU64Mul geometry.bucketCount linkBytes with
    | .error e => .error e
    | .ok bucketBytes =>
      match checkedU64Add controlBytes bucketBytes with
      | .error e => .error e
      | .ok total =>
        if geometry.bucketCount > maxBuckets ∨ maxMemoryBytes > maxMemory ∨
            total > maxMemoryBytes then .error .range
        else if memory = false then .error .noMemory
        else .ok (fresh geometry maxMemoryBytes total)

variable (w : Wheel)

/-- `vireo_timer_wheel_prepare_runtime`, with the result of the owner's creation; `memory`: of the node table. -/
def prepareRuntime (capacity maxMemoryBytes : UInt64) (memory : Bool)
    (createOwner : UInt64 → UInt64 → Except Result HandleOwner) : Result × Wheel :=
  if capacity = 0 ∨ maxMemoryBytes = 0 then (.invalidArgument, w)
  else if w.owner.isSome then (.busy, w)
  else
    match checkedU64Mul capacity nodeSize with
    | .error e => (e, w)
    | .ok bytes =>
      if capacity > maxCapacity ∨ maxMemoryBytes > maxMemory ∨ bytes ≥ maxMemoryBytes then
        (.range, w)
      else if memory = false then (.noMemory, w)
      else
        match createOwner capacity (maxMemoryBytes - bytes) with
        | .error e => (e, w)
        | .ok owner =>
          (.ok, { w with
            owner := some owner
            nodes := fun _ => .free
            links := ⟨fun l => match l with | .node s => .node s | l => w.links.prev l,
              fun l => match l with | .node s => .node s | l => w.links.next l⟩
            timerCapacity := capacity
            nodeBytes := bytes
            registryBudget := maxMemoryBytes })

/-- `vireo_timer_wheel_prepare`: the owner takes the next identity after `counter`. -/
def prepare (capacity maxMemoryBytes counter : UInt64) (memory ownerMemory : Bool) :
    Result × Wheel :=
  w.prepareRuntime capacity maxMemoryBytes memory fun c m =>
    (HandleOwner.create c m counter ownerMemory).1

/-- `validate_slot`: shape, prepared registry, then the owner's verdict. -/
def validateSlot (h : TimerHandle) : Result :=
  match h.isEmpty with
  | .error e => e
  | .ok _ =>
    match w.owner with
    | none => .notFound
    | some owner =>
      match owner.validate h with
      | .ok => if h.slotIndex ≥ w.timerCapacity then .range else .ok
      | e => e

/-- `deadline_values`: a future deadline with its tick and bucket. -/
def deadlineValues (nowNs deadlineNs : UInt64) : Except Result (UInt64 × UInt64) :=
  if nowNs < w.geometry.originNs then .error .range
  else if deadlineNs ≤ nowNs then .error .timeout
  else
    match w.geometry.deadlineTick deadlineNs with
    | .error e => .error e
    | .ok tick =>
      match w.geometry.bucketIndex tick with
      | .error e => .error e
      | .ok bucket => .ok (tick, bucket)

/-! ## 2. Placing a node -/

/-- The last tick whose timers are due: the one in process, else the last completed one. -/
def frontier : UInt64 :=
  if w.processing then w.completedTick + 1 else w.completedTick

/-- `vireo_timer_wheel_place_node`: a detached node goes to the ready ring or to its bucket. -/
def placeNode (slot : UInt64) : Wheel :=
  let node := w.nodes slot
  if node.dueTick ≤ w.frontier then
    { w with
      nodes := update w.nodes slot { node with ready := true }
      links := w.links.append .ready (.node slot)
      readyCount := w.readyCount + 1 }
  else
    { w with
      nodes := update w.nodes slot { node with ready := false }
      links := w.links.append (.bucket node.bucketIndex) (.node slot) }

/-! ## 3. Register, query, cancel, rearm -/

/-- `vireo_timer_wheel_register_runtime`; `out` is the caller's handle, which must be empty. -/
def registerRuntime (nowNs deadlineNs : UInt64) (out : TimerHandle) (acquire : AcquireFn) :
    Except Result TimerHandle × Wheel :=
  match out.isEmpty with
  | .error _ => (.error .invalidArgument, w)
  | .ok false => (.error .invalidArgument, w)
  | .ok true =>
    match w.owner with
    | none => (.error .notFound, w)
    | some owner =>
      if w.stopping then (.error .cancelled, w)
      else
        match w.deadlineValues nowNs deadlineNs with
        | .error e => (.error e, w)
        | .ok (due, bucket) =>
          match acquire owner with
          | .error e => (.error e, w)
          | .ok (handle, owner') =>
            let node := { w.nodes handle.slotIndex with
              handle := handle, deadlineNs := deadlineNs, dueTick := due, bucketIndex := bucket }
            let w' := { w with
              owner := some owner'
              nodes := update w.nodes handle.slotIndex node }
            (.ok handle, w'.placeNode handle.slotIndex)

/-- `vireo_timer_wheel_register`. -/
def register (nowNs deadlineNs : UInt64) (out : TimerHandle) :
    Except Result TimerHandle × Wheel :=
  w.registerRuntime nowNs deadlineNs out HandleOwner.acquire

/-- `vireo_timer_wheel_get`. -/
def get (h : TimerHandle) : Except Result TimerInfo :=
  match w.validateSlot h with
  | .ok => .ok (w.nodes h.slotIndex).info
  | e => .error e

/-- `vireo_timer_wheel_cancel_runtime`: the node leaves its ring first; when the owner refuses,
    the old neighbours are written back. -/
def cancelRuntime (h : TimerHandle) (release : ReleaseFn) : Result × Wheel :=
  match w.validateSlot h, w.owner with
  | .ok, some owner =>
    let slot := h.slotIndex
    let p := w.links.prev (.node slot)
    let n := w.links.next (.node slot)
    let detached := w.links.detach (.node slot)
    match release owner h with
    | .error e => (e, { w with links := detached.restore (.node slot) p n })
    | .ok owner' =>
      (.ok, { w with
        owner := some owner'
        links := detached
        readyCount := if (w.nodes slot).ready then w.readyCount - 1 else w.readyCount
        nodes := update w.nodes slot .free })
  | .ok, none => (.notFound, w)
  | e, _ => (e, w)

/-- `vireo_timer_wheel_cancel`. -/
def cancel (h : TimerHandle) : Result × Wheel := w.cancelRuntime h HandleOwner.release

/-- `vireo_timer_wheel_rearm`: the identity stays, the deadline is replaced. -/
def rearm (h : TimerHandle) (nowNs deadlineNs : UInt64) : Result × Wheel :=
  match w.validateSlot h with
  | .ok =>
    if w.stopping then (.cancelled, w)
    else
      match w.deadlineValues nowNs deadlineNs with
      | .error e => (e, w)
      | .ok (due, bucket) =>
        let slot := h.slotIndex
        let node := w.nodes slot
        let w' := { w with
          links := w.links.detach (.node slot)
          readyCount := if node.ready then w.readyCount - 1 else w.readyCount
          nodes := update w.nodes slot { node with
            ready := false, deadlineNs := deadlineNs, dueTick := due, bucketIndex := bucket } }
        (.ok, w'.placeNode slot)
  | e => (e, w)

/-! ## 4. Advance and take -/

/-- `progress_value`. -/
def progressValue : Progress :=
  let target := w.geometry.targetTick w.latestNowNs
  { latestNowNs := w.latestNowNs
    targetTick := target
    completedTick := w.completedTick
    processing := w.processing
    readyCount := w.readyCount
    caughtUp := !w.processing && w.completedTick == target }

/-- The tick in process is complete once its snapshot is drained. -/
def finishTick : Wheel :=
  if w.processing ∧ w.links.next .pending = .pending then
    { w with completedTick := w.completedTick + 1, processing := false }
  else w

/-- Start the next tick: its whole bucket becomes the pending snapshot. -/
def openTick : Wheel :=
  { w with
    links := w.links.splice .pending
      (.bucket ((w.completedTick + 1) % w.geometry.bucketCount))
    processing := true }

/-- Go on with the tick in process or start the next one. -/
def visitTick : Wheel := if w.processing then w else w.openTick

/-- Take one node off the snapshot and place it again. -/
def checkNode (slot : UInt64) : Wheel :=
  { w with links := w.links.detach (.node slot) }.placeNode slot

/-- The loop of `vireo_timer_wheel_advance`, with the budgets counted down. A pending ring that
    starts with a node is worked on; one that is empty ends its tick in the next round, and only
    a freshly opened tick can be empty here (`finishTick` has just closed a drained one). -/
def advanceLoop (target : UInt64) (w : Wheel) (ticksLeft nodesLeft : Nat) : Wheel × Nat × Nat :=
  let w₁ := w.finishTick
  if w₁.processing = false ∧ (w₁.completedTick = target ∨ ticksLeft = 0) then
    (w₁, ticksLeft, nodesLeft)
  else
    let w₂ := w₁.visitTick
    let left := if w₁.processing then ticksLeft else ticksLeft - 1
    match w₂.links.next .pending with
    | .node slot =>
      if nodesLeft = 0 then (w₂, left, nodesLeft)
      else advanceLoop target (w₂.checkNode slot) left (nodesLeft - 1)
    | _ =>
      if left < ticksLeft then advanceLoop target w₂ left nodesLeft else (w₂, left, nodesLeft)
termination_by ticksLeft + nodesLeft
decreasing_by all_goals grind

/-- `vireo_timer_wheel_advance`. -/
def advance (nowNs : UInt64) (maxTicks maxNodes : Nat) :
    Except Result AdvanceReport × Wheel :=
  if maxTicks = 0 ∨ maxNodes = 0 then (.error .invalidArgument, w)
  else if maxTicks > maxBudget ∨ maxNodes > maxBudget then (.error .range, w)
  else if w.owner.isNone then (.error .notFound, w)
  else if w.stopping then (.error .cancelled, w)
  else if nowNs < w.geometry.originNs ∨ nowNs < w.latestNowNs then (.error .range, w)
  else
    let target := w.geometry.targetTick nowNs
    let (w', ticksLeft, nodesLeft) :=
      advanceLoop target { w with latestNowNs := nowNs } maxTicks maxNodes
    (.ok ⟨w'.progressValue, maxTicks - ticksLeft, maxNodes - nodesLeft⟩, w')

/-- `vireo_timer_wheel_take_expired_runtime`: the first ready timer is copied out and its
    identity given back. -/
def takeExpiredRuntime (release : ReleaseFn) : Except Result Expired × Wheel :=
  match w.owner, w.links.next .ready with
  | some _, .node slot =>
    let event : Expired := ⟨(w.nodes slot).handle, (w.nodes slot).info⟩
    match w.cancelRuntime event.handle release with
    | (.ok, w') => (.ok event, w')
    | (e, w') => (.error e, w')
  | _, _ => (.error .notFound, w)

/-- `vireo_timer_wheel_take_expired`. -/
def takeExpired : Except Result Expired × Wheel :=
  w.takeExpiredRuntime HandleOwner.release

/-! ## 5. Shutdown -/

/-- `vireo_timer_wheel_shutdown_begin`. -/
def shutdownBegin : Result × Wheel :=
  if w.owner.isNone then (.notFound, w) else (.ok, { w with stopping := true })

/-- The scan of `vireo_timer_wheel_shutdown_step`: the next slot, at most `left` away, that
    still carries a timer, with the cursor behind it. -/
def shutdownScan (w : Wheel) (cursor : UInt64) : Nat → UInt64 × Option UInt64
  | 0 => (cursor, none)
  | left + 1 =>
    if cursor < w.timerCapacity then
      if (w.nodes cursor).handle.ownerId = 0 then shutdownScan w (cursor + 1) left
      else (cursor + 1, some cursor)
    else (cursor, none)

/-- `vireo_timer_wheel_shutdown_step_runtime`: at most one timer is cancelled; the cursor moves
    only when nothing failed. -/
def shutdownStepRuntime (maxSlots : UInt64) (release : ReleaseFn) :
    Except Result ShutdownReport × Wheel :=
  if maxSlots = 0 then (.error .invalidArgument, w)
  else if maxSlots > maxShutdownSlots then (.error .range, w)
  else
    match w.owner with
    | none => (.error .notFound, w)
    | some owner =>
      if w.stopping = false then (.error .busy, w)
      else
        let active := owner.activeCount
        if active = 0 then
          (.ok ⟨0, false, none, active, true⟩, { w with shutdownCursor := w.timerCapacity })
        else
          let (cursor, found) := w.shutdownScan w.shutdownCursor maxSlots.toNat
          let scanned := cursor - w.shutdownCursor
          match found with
          | none =>
            (.ok ⟨scanned, false, none, active, active == 0⟩, { w with shutdownCursor := cursor })
          | some slot =>
            let record : Expired := ⟨(w.nodes slot).handle, (w.nodes slot).info⟩
            match w.cancelRuntime record.handle release with
            | (.ok, w') =>
              (.ok ⟨scanned, true, some record, active - 1, active - 1 == 0⟩,
                { w' with shutdownCursor := cursor })
            | (e, w') => (.error e, w')

/-- `vireo_timer_wheel_shutdown_step`. -/
def shutdownStep (maxSlots : UInt64) : Except Result ShutdownReport × Wheel :=
  w.shutdownStepRuntime maxSlots HandleOwner.release

end Wheel

end Vireo.Timer
