import QemuGzvm.Library.Transition

/-!
Contract: tracked requests of one node and how they wait for each other
(`tracked_request_begin`, `tracked_request_end`, `bdrv_find_conflicting_request`,
`bdrv_wait_serialising_requests`, `bdrv_make_request_serialising` of `block/io.c`, and their
callers `bdrv_co_pwritev_part`, `bdrv_aligned_preadv` and `bdrv_co_pdiscard`).

Owns:
- `BdrvTrackedRequest` and the search for a conflicting one;
- reads, writes, discards and padded writes in different threads, as atomic steps: each
  critical section of `reqs_lock`, each access to `serialising_in_flight`, the beginning and the
  end of each driver call.
-/

namespace QemuGzvm.Block

open QemuGzvm.Library

inductive BdrvTrackedRequestType where
  | read
  | write
  | discard
deriving DecidableEq, Repr

structure BdrvTrackedRequest where
  offset : Nat
  bytes : Nat
  type : BdrvTrackedRequestType
  serialising : Bool
  overlapOffset : Nat
  overlapBytes : Nat
deriving DecidableEq, Repr

def trackedRequestBegin (offset bytes : Nat) (type : BdrvTrackedRequestType) :
    BdrvTrackedRequest :=
  ⟨offset, bytes, type, false, offset, bytes⟩

def roundUp (n align : Nat) : Nat := (n + align - 1) / align * align

def trackedRequestSetSerialising (req : BdrvTrackedRequest) (align : Nat) : BdrvTrackedRequest :=
  let overlapOffset := req.offset / align * align
  let overlapBytes := roundUp (req.offset + req.bytes) align - overlapOffset
  { req with
    serialising := true
    overlapOffset := min req.overlapOffset overlapOffset
    overlapBytes := max req.overlapBytes overlapBytes }

def trackedRequestOverlaps (req : BdrvTrackedRequest) (offset bytes : Nat) : Bool :=
  if offset ≥ req.overlapOffset + req.overlapBytes then false
  else if req.overlapOffset ≥ offset + bytes then false
  else true

def BdrvTrackedRequest.overlaps (req other : BdrvTrackedRequest) : Bool :=
  trackedRequestOverlaps req other.overlapOffset other.overlapBytes

theorem BdrvTrackedRequest.overlaps_comm (req other : BdrvTrackedRequest) :
    req.overlaps other = other.overlaps req := by
  unfold BdrvTrackedRequest.overlaps trackedRequestOverlaps
  split <;> split <;> rfl

/-! ### Requests as threads see them -/

inductive DriverOp where
  | read
  | write
deriving DecidableEq, Repr

/-- Where a request is. `initial` marks the wait in `bdrv_make_request_serialising`. -/
inductive RequestPc where
  | idle
  | listed
  /-- Found `serialising_in_flight` set; takes `reqs_lock` next. -/
  | toLock
  /-- In the `wait_queue` of the request that `waiting_for` names. -/
  | blocked (initial : Bool)
  /-- Out of it; takes `reqs_lock` next. -/
  | woken (initial : Bool)
  /-- Through with waiting; the driver call is next. -/
  | ready
  | inDriver
  | between
  /-- In `tracked_request_end`: before the counter, before the list, before `wait_queue`. -/
  | ending
  | unlisting
  | restarting
  | ended
deriving DecidableEq, Repr

structure RequestState where
  req : BdrvTrackedRequest
  pc : RequestPc
  plan : List DriverOp
  /-- The alignment that a padded write makes itself serialising with. -/
  padded : Option Nat
  /-- A padded write has begun to read its padding. -/
  hasRead : Bool
deriving DecidableEq, Repr

namespace RequestState

def fresh : RequestState where
  req := trackedRequestBegin 0 0 .read
  pc := .idle
  plan := []
  padded := none
  hasRead := false

/-- Its padding is read and not all of it is written back. -/
def guarded (r : RequestState) : Bool := r.hasRead && r.plan.contains .write

def writesNext (r : RequestState) : Bool := r.plan.head? == some .write

def wake (r : RequestState) : RequestState :=
  match r.pc with
  | .blocked initial => { r with pc := .woken initial }
  | _ => r

def writing (r : RequestState) : Bool := decide (r.pc = .inDriver) && r.writesNext

end RequestState

structure NodeState where
  tracked : List Nat
  requests : Nat → RequestState
  waitingFor : Nat → Option Nat
  serialisingInFlight : Nat
  /-- When a request began to wait, and the steps so far. -/
  waitedAt : Nat → Nat
  clock : Nat

def NodeState.start : NodeState where
  tracked := []
  requests := fun _ => .fresh
  waitingFor := fun _ => none
  serialisingInFlight := 0
  waitedAt := fun _ => 0
  clock := 0

/-! ### Steps -/

structure RequestCall where
  offset : Nat
  bytes : Nat
  type : BdrvTrackedRequestType
  padded : Option Nat
  plan : List DriverOp
deriving DecidableEq, Repr

/-- Reads, writes and discards make one driver call. A padded write reads one or two blocks and
writes in up to three parts. -/
def RequestCall.wellFormed (call : RequestCall) : Bool :=
  match call.padded with
  | none => decide (call.plan = [if call.type = .read then .read else .write])
  | some align => decide (0 < align) && decide (call.type = .write) &&
      [[DriverOp.read], [.read, .read]].any fun reads =>
        [[DriverOp.write], [.write, .write], [.write, .write, .write]].any fun writes =>
          decide (call.plan = reads ++ writes)

inductive NodeStep where
  | begin (id : Nat) (call : RequestCall)
  | makeSerialising (id : Nat)
  | readCounter (id : Nat)
  | lockWait (id : Nat)
  | relock (id : Nat)
  | driverBegin (id : Nat)
  /-- The end of a driver call. A call that fails can make the request leave out later ones. -/
  | driverEnd (id : Nat) (skipped : Nat)
  | decCounter (id : Nat)
  | unlist (id : Nat)
  | restart (id : Nat)
deriving DecidableEq, Repr

namespace NodeState

variable (s : NodeState)

def setRequest (id : Nat) (r : RequestState) : NodeState :=
  { s with requests := Function.update s.requests id r, clock := s.clock + 1 }

def setPc (id : Nat) (pc : RequestPc) : NodeState :=
  s.setRequest id { s.requests id with pc }

def findConflicting (self : Nat) : Option Nat :=
  s.tracked.find? fun id =>
    decide (id ≠ self) && ((s.requests id).req.serialising || (s.requests self).req.serialising) &&
      (s.requests id).req.overlaps (s.requests self).req && (s.waitingFor id).isNone

/-- A turn of the loop in `bdrv_wait_serialising_requests_locked`: waits, or goes on at `next`. -/
def waitLocked (id : Nat) (initial : Bool) : NodeState :=
  match s.findConflicting id with
  | some other =>
    { s.setPc id (.blocked initial) with
      waitingFor := Function.update s.waitingFor id (some other)
      waitedAt := Function.update s.waitedAt id s.clock }
  | none => s.setPc id (if initial then .between else .ready)

def stopWaiting (id : Nat) : NodeState :=
  { s with waitingFor := Function.update s.waitingFor id none }

def setSerialising (id align : Nat) : NodeState :=
  let r := s.requests id
  { s with
    requests := Function.update s.requests id
      { r with req := trackedRequestSetSerialising r.req align }
    serialisingInFlight :=
      if r.req.serialising then s.serialisingInFlight else s.serialisingInFlight + 1 }

def wakeWaiters (id : Nat) : NodeState :=
  { s with requests := fun other =>
      if s.waitingFor other = some id then (s.requests other).wake else s.requests other }

def afterDriver (plan : List DriverOp) : RequestPc := if plan = [] then .ending else .between

def begun (id : Nat) (call : RequestCall) : NodeState :=
  { s.setRequest id
      ⟨trackedRequestBegin call.offset call.bytes call.type, .listed, call.plan, call.padded,
        false⟩ with
    tracked := id :: s.tracked }

/-- A padded write that reads is reading its padding. -/
def inDriver (r : RequestState) : RequestState :=
  { r with pc := .inDriver, hasRead := r.hasRead || (r.padded.isSome && r.plan.head? == some .read) }

def outOfDriver (r : RequestState) (skipped : Nat) : RequestState :=
  { r with plan := r.plan.tail.drop skipped, pc := afterDriver (r.plan.tail.drop skipped) }

def decCounter (id : Nat) : NodeState :=
  { s.setPc id .unlisting with
    serialisingInFlight :=
      if (s.requests id).req.serialising then s.serialisingInFlight - 1
      else s.serialisingInFlight }

def unlist (id : Nat) : NodeState :=
  { s.setPc id .restarting with tracked := s.tracked.erase id }

def next : NodeStep → Option NodeState
  | .begin id call =>
    if (s.requests id).pc = .idle ∧ call.wellFormed then
      some (s.begun id call)
    else none
  | .makeSerialising id =>
    match (s.requests id).pc, (s.requests id).padded with
    | .listed, some align => some ((s.setSerialising id align).waitLocked id true)
    | _, _ => none
  | .readCounter id =>
    if ((s.requests id).pc = .listed ∧ (s.requests id).padded = none) ∨
        (s.requests id).pc = .between then
      some (s.setPc id (if s.serialisingInFlight = 0 then .ready else .toLock))
    else none
  | .lockWait id => if (s.requests id).pc = .toLock then some (s.waitLocked id false) else none
  | .relock id =>
    match (s.requests id).pc with
    | .woken initial => some ((s.stopWaiting id).waitLocked id initial)
    | _ => none
  | .driverBegin id =>
    if (s.requests id).pc = .ready then
      some (s.setRequest id (inDriver (s.requests id)))
    else none
  | .driverEnd id skipped =>
    if (s.requests id).pc = .inDriver then
      some (s.setRequest id (outOfDriver (s.requests id) skipped))
    else none
  | .decCounter id =>
    if (s.requests id).pc = .ending then some (s.decCounter id) else none
  | .unlist id =>
    if (s.requests id).pc = .unlisting then some (s.unlist id) else none
  | .restart id =>
    if (s.requests id).pc = .restarting then some ((s.setPc id .ended).wakeWaiters id)
    else none

end NodeState

def serialisingSystem : LabelledSystem NodeState NodeStep := .ofNext .start NodeState.next

/-! ### What a step can do -/

/-- The steps, with the pc of the request before and the state after. -/
inductive NodeTook (s : NodeState) : NodeStep → NodeState → Prop
  | begin {id : Nat} {call : RequestCall} (pc : (s.requests id).pc = .idle) :
      NodeTook s (.begin id call) (s.begun id call)
  | makeSerialising {id align : Nat} (pc : (s.requests id).pc = .listed)
      (padded : (s.requests id).padded = some align) :
      NodeTook s (.makeSerialising id) ((s.setSerialising id align).waitLocked id true)
  | readCounter {id : Nat} (pc : ((s.requests id).pc = .listed ∧ (s.requests id).padded = none) ∨
        (s.requests id).pc = .between) :
      NodeTook s (.readCounter id)
        (s.setPc id (if s.serialisingInFlight = 0 then .ready else .toLock))
  | lockWait {id : Nat} (pc : (s.requests id).pc = .toLock) :
      NodeTook s (.lockWait id) (s.waitLocked id false)
  | relock {id : Nat} {initial : Bool} (pc : (s.requests id).pc = .woken initial) :
      NodeTook s (.relock id) ((s.stopWaiting id).waitLocked id initial)
  | driverBegin {id : Nat} (pc : (s.requests id).pc = .ready) :
      NodeTook s (.driverBegin id) (s.setRequest id (NodeState.inDriver (s.requests id)))
  | driverEnd {id skipped : Nat} (pc : (s.requests id).pc = .inDriver) :
      NodeTook s (.driverEnd id skipped)
        (s.setRequest id (NodeState.outOfDriver (s.requests id) skipped))
  | decCounter {id : Nat} (pc : (s.requests id).pc = .ending) :
      NodeTook s (.decCounter id) (s.decCounter id)
  | unlist {id : Nat} (pc : (s.requests id).pc = .unlisting) : NodeTook s (.unlist id) (s.unlist id)
  | restart {id : Nat} (pc : (s.requests id).pc = .restarting) :
      NodeTook s (.restart id) ((s.setPc id .ended).wakeWaiters id)

theorem NodeState.next_took {s t : NodeState} {step : NodeStep} (taken : s.next step = some t) :
    NodeTook s step t := by
  unfold NodeState.next at taken
  split at taken <;> split at taken <;> grind [NodeTook]

end QemuGzvm.Block
