import QemuGzvm.Library.Transition

/-!
Contract: concurrent writes and flushes of one node (`bdrv_co_flush`,
`bdrv_co_write_req_finish` and `bdrv_co_pdiscard` of `block/io.c`).

Owns:
- any number of write, discard and flush calls on a node as atomic steps over `write_gen`,
  `flushed_gen`, `active_flush_req` and `flush_queue`;
- the history that the steps leave: when driver operations, flushes to disk and calls ended.

A flush reads `write_gen` before it queues behind an active one, and stores what it read
when it is through. The counts beside the generations are the numbers that they are the
low 32 bits of.
-/

namespace QemuGzvm.Block

open QemuGzvm.Library

/-- What `bdrv_co_flush` asks of a node, and which callbacks its driver has. -/
structure FlushNode where
  readOnly : Bool
  sg : Bool
  noFlush : Bool
  bdrvCoFlush : Bool
  bdrvCoFlushToOs : Bool
  bdrvCoFlushToDisk : Bool
  bdrvAioFlush : Bool
deriving DecidableEq, Repr

structure FlushCall where
  currentGen : UInt32
  /-- How many writes had finished when it was read. -/
  count : Nat
  begunAt : Nat
deriving DecidableEq, Repr

inductive FlushPhase where
  | idle
  /-- Through the `early_exit`, with 0. -/
  | exitedEarly (begunAt returnedAt : Nat)
  | waiting (call : FlushCall)
  /-- Taken out of `flush_queue`; takes `reqs_lock` next. -/
  | woken (call : FlushCall)
  | active (call : FlushCall)
  /-- The data is with the operating system; compares the generations next. -/
  | onOs (call : FlushCall)
  | toDisk (call : FlushCall) (startedAt : Nat)
  | flushChildren (call : FlushCall)
  | out (call : FlushCall) (ret : Int)
  /-- The generation is stored; takes `reqs_lock` next. -/
  | stored (call : FlushCall) (ret : Int)
  | returned (call : FlushCall) (ret : Int) (returnedAt : Nat)
deriving DecidableEq, Repr

/-- When a call that has returned began, what it returned, and when. -/
def FlushPhase.result : FlushPhase → Option (Nat × Int × Nat)
  | .exitedEarly begunAt returnedAt => some (begunAt, 0, returnedAt)
  | .returned call ret returnedAt => some (call.begunAt, ret, returnedAt)
  | _ => none

/-- Between setting `active_flush_req` and clearing it. -/
def FlushPhase.holds : FlushPhase → Bool
  | .active _ | .onOs _ | .toDisk _ _ | .flushChildren _ | .out _ _ | .stored _ _ => true
  | _ => false

structure WriteCall where
  /-- When its last driver operation completed, if it made one. -/
  lastDone : Option Nat
  /-- How many writes had finished with it, as of its last `bdrv_co_write_req_finish`. -/
  countedAs : Nat
deriving DecidableEq, Repr

/-- Where a write or discard is. One request can come to `bdrv_aligned_pwritev` several times:
for its head, its middle and its tail. -/
inductive WritePhase where
  | idle
  | preparing (call : WriteCall)
  | inDriver (call : WriteCall)
  | finished (call : WriteCall)
  | returned (call : WriteCall) (returnedAt : Nat)
deriving DecidableEq, Repr

/-- The calls whose driver operations are all counted in `write_gen`. -/
def WritePhase.settled : WritePhase → Option WriteCall
  | .finished call | .returned call _ => some call
  | _ => none

/-- A `bdrv_co_flush_to_disk` that was successful. -/
structure DiskFlush where
  startedAt : Nat
  finishedAt : Nat
deriving DecidableEq, Repr

structure FlushState where
  writeGen : UInt32
  flushedGen : UInt32
  activeFlushReq : Bool
  flushQueue : List Nat
  flushes : Nat → FlushPhase
  writes : Nat → WritePhase
  /-- The history. -/
  writeCount : Nat
  flushedCount : Nat
  diskFlushes : List DiskFlush
  clock : Nat

def FlushState.start : FlushState where
  writeGen := 0
  flushedGen := 0
  activeFlushReq := false
  flushQueue := []
  flushes := fun _ => .idle
  writes := fun _ => .idle
  writeCount := 0
  flushedCount := 0
  diskFlushes := []
  clock := 0

/-! ### Steps -/

inductive FlushStep where
  /-- A write begins, goes into the driver or comes back from it, passes
  `bdrv_co_write_req_finish`, goes on with its next part, or returns. -/
  | writeBegin (id : Nat)
  | driverBegin (id : Nat)
  | driverDone (id : Nat)
  | writeFinish (id : Nat)
  | writeContinue (id : Nat)
  | writeReturn (id : Nat)
  /-- A request that has nothing to do, or fails before it is tracked. -/
  | writeSkip (id : Nat)
  | flushBegin (id : Nat) (inserted : Bool)
  | flushResume (id : Nat)
  /-- The driver's own `bdrv_co_flush`. -/
  | driverFlush (id : Nat) (ret : Int)
  | flushToOs (id : Nat) (ret : Int)
  | compare (id : Nat)
  | toDiskDone (id : Nat) (ret : Int)
  | childrenDone (id : Nat) (ret : Int)
  | store (id : Nat)
  | release (id : Nat)
deriving DecidableEq, Repr

namespace FlushState

variable (node : FlushNode) (s : FlushState)

def setWrite (id : Nat) (phase : WritePhase) : FlushState :=
  { s with writes := Function.update s.writes id phase, clock := s.clock + 1 }

def setFlush (id : Nat) (phase : FlushPhase) : FlushState :=
  { s with flushes := Function.update s.flushes id phase, clock := s.clock + 1 }

def countWrite (id : Nat) (call : WriteCall) : FlushState :=
  { s.setWrite id (.finished { call with countedAs := s.writeCount + 1 }) with
    writeGen := s.writeGen + 1, writeCount := s.writeCount + 1 }

def acquire (id : Nat) (call : FlushCall) : FlushState :=
  if s.activeFlushReq then
    { s.setFlush id (.waiting call) with flushQueue := s.flushQueue ++ [id] }
  else { s.setFlush id (.active call) with activeFlushReq := true }

/-- The comparison, and the choice of the callback. -/
def flushToDisk (id : Nat) (call : FlushCall) : FlushState :=
  if node.noFlush || decide (s.flushedGen = call.currentGen) then s.setFlush id (.flushChildren call)
  else if node.bdrvCoFlushToDisk || node.bdrvAioFlush then s.setFlush id (.toDisk call s.clock)
  else s.setFlush id (.flushChildren call)

def released (id : Nat) (call : FlushCall) (ret : Int) : FlushState :=
  { s.setFlush id (.returned call ret s.clock) with activeFlushReq := false }

def coQueueNext : FlushState :=
  match s.flushQueue with
  | [] => s
  | next :: rest =>
    match s.flushes next with
    | .waiting call =>
      { s with flushes := Function.update s.flushes next (.woken call), flushQueue := rest }
    | _ => { s with flushQueue := rest }

def next : FlushStep → Option FlushState
  | .writeBegin id =>
    match s.writes id with
    | .idle => some (s.setWrite id (.preparing ⟨none, 0⟩))
    | _ => none
  | .driverBegin id =>
    match s.writes id with
    | .preparing call => some (s.setWrite id (.inDriver call))
    | _ => none
  | .driverDone id =>
    match s.writes id with
    | .inDriver call => some (s.setWrite id (.preparing { call with lastDone := some s.clock }))
    | _ => none
  | .writeFinish id =>
    match s.writes id with
    | .preparing call => some (s.countWrite id call)
    | _ => none
  | .writeContinue id =>
    match s.writes id with
    | .finished call => some (s.setWrite id (.preparing call))
    | _ => none
  | .writeReturn id =>
    match s.writes id with
    | .finished call => some (s.setWrite id (.returned call s.clock))
    | _ => none
  | .writeSkip id =>
    match s.writes id with
    | .idle => some (s.setWrite id (.returned ⟨none, 0⟩ s.clock))
    | _ => none
  | .flushBegin id inserted =>
    match s.flushes id with
    | .idle =>
      if !inserted || node.readOnly || node.sg then
        some (s.setFlush id (.exitedEarly s.clock s.clock))
      else some (s.acquire id ⟨s.writeGen, s.writeCount, s.clock⟩)
    | _ => none
  | .flushResume id =>
    match s.flushes id with
    | .woken call => some (s.acquire id call)
    | _ => none
  | .driverFlush id ret =>
    match s.flushes id with
    | .active call => if node.bdrvCoFlush then some (s.setFlush id (.out call ret)) else none
    | _ => none
  | .flushToOs id ret =>
    match s.flushes id with
    | .active call =>
      if node.bdrvCoFlush then none
      else if node.bdrvCoFlushToOs && decide (ret < 0) then some (s.setFlush id (.out call ret))
      else some (s.setFlush id (.onOs call))
    | _ => none
  | .compare id =>
    match s.flushes id with
    | .onOs call => some (s.flushToDisk node id call)
    | _ => none
  | .toDiskDone id ret =>
    match s.flushes id with
    | .toDisk call startedAt =>
      if ret < 0 then some (s.setFlush id (.out call ret))
      else some { s.setFlush id (.flushChildren call) with
        diskFlushes := ⟨startedAt, s.clock⟩ :: s.diskFlushes }
    | _ => none
  | .childrenDone id ret =>
    match s.flushes id with
    | .flushChildren call => some (s.setFlush id (.out call ret))
    | _ => none
  | .store id =>
    match s.flushes id with
    | .out call ret =>
      if ret = 0 then
        some { s.setFlush id (.stored call ret) with
          flushedGen := call.currentGen, flushedCount := call.count }
      else some (s.setFlush id (.stored call ret))
    | _ => none
  | .release id =>
    match s.flushes id with
    | .stored call ret => some (s.released id call ret).coQueueNext
    | _ => none

end FlushState

def flushSystem (node : FlushNode) : LabelledSystem FlushState FlushStep :=
  .ofNext .start (FlushState.next node)

/-! ### What a step can do -/

/-- The steps, with the phase of the call before and the state after. -/
inductive FlushTook (node : FlushNode) (s : FlushState) : FlushStep → FlushState → Prop
  | writeBegin {id : Nat} (phase : s.writes id = .idle) :
      FlushTook node s (.writeBegin id) (s.setWrite id (.preparing ⟨none, 0⟩))
  | driverBegin {id : Nat} {call : WriteCall} (phase : s.writes id = .preparing call) :
      FlushTook node s (.driverBegin id) (s.setWrite id (.inDriver call))
  | driverDone {id : Nat} {call : WriteCall} (phase : s.writes id = .inDriver call) :
      FlushTook node s (.driverDone id)
        (s.setWrite id (.preparing { call with lastDone := some s.clock }))
  | writeFinish {id : Nat} {call : WriteCall} (phase : s.writes id = .preparing call) :
      FlushTook node s (.writeFinish id) (s.countWrite id call)
  | writeContinue {id : Nat} {call : WriteCall} (phase : s.writes id = .finished call) :
      FlushTook node s (.writeContinue id) (s.setWrite id (.preparing call))
  | writeReturn {id : Nat} {call : WriteCall} (phase : s.writes id = .finished call) :
      FlushTook node s (.writeReturn id) (s.setWrite id (.returned call s.clock))
  | writeSkip {id : Nat} (phase : s.writes id = .idle) :
      FlushTook node s (.writeSkip id) (s.setWrite id (.returned ⟨none, 0⟩ s.clock))
  | exitEarly {id : Nat} {inserted : Bool} (phase : s.flushes id = .idle)
      (early : (!inserted || node.readOnly || node.sg) = true) :
      FlushTook node s (.flushBegin id inserted) (s.setFlush id (.exitedEarly s.clock s.clock))
  | flushBegin {id : Nat} {inserted : Bool} (phase : s.flushes id = .idle) :
      FlushTook node s (.flushBegin id inserted)
        (s.acquire id ⟨s.writeGen, s.writeCount, s.clock⟩)
  | flushResume {id : Nat} {call : FlushCall} (phase : s.flushes id = .woken call) :
      FlushTook node s (.flushResume id) (s.acquire id call)
  | driverFlush {id : Nat} {call : FlushCall} {ret : Int} (phase : s.flushes id = .active call)
      (own : node.bdrvCoFlush = true) :
      FlushTook node s (.driverFlush id ret) (s.setFlush id (.out call ret))
  | osFailed {id : Nat} {call : FlushCall} {ret : Int} (phase : s.flushes id = .active call)
      (failed : ret < 0) : FlushTook node s (.flushToOs id ret) (s.setFlush id (.out call ret))
  | osDone {id : Nat} {call : FlushCall} {ret : Int} (phase : s.flushes id = .active call) :
      FlushTook node s (.flushToOs id ret) (s.setFlush id (.onOs call))
  | compare {id : Nat} {call : FlushCall} (phase : s.flushes id = .onOs call) :
      FlushTook node s (.compare id) (s.flushToDisk node id call)
  | diskFailed {id : Nat} {call : FlushCall} {startedAt : Nat} {ret : Int}
      (phase : s.flushes id = .toDisk call startedAt) (failed : ret < 0) :
      FlushTook node s (.toDiskDone id ret) (s.setFlush id (.out call ret))
  | diskDone {id : Nat} {call : FlushCall} {startedAt : Nat} {ret : Int}
      (phase : s.flushes id = .toDisk call startedAt) :
      FlushTook node s (.toDiskDone id ret) { s.setFlush id (.flushChildren call) with
        diskFlushes := ⟨startedAt, s.clock⟩ :: s.diskFlushes }
  | childrenDone {id : Nat} {call : FlushCall} {ret : Int}
      (phase : s.flushes id = .flushChildren call) :
      FlushTook node s (.childrenDone id ret) (s.setFlush id (.out call ret))
  | store {id : Nat} {call : FlushCall} (phase : s.flushes id = .out call 0) :
      FlushTook node s (.store id) { s.setFlush id (.stored call 0) with
        flushedGen := call.currentGen, flushedCount := call.count }
  | storeNothing {id : Nat} {call : FlushCall} {ret : Int} (phase : s.flushes id = .out call ret)
      (failed : ret ≠ 0) : FlushTook node s (.store id) (s.setFlush id (.stored call ret))
  | release {id : Nat} {call : FlushCall} {ret : Int} (phase : s.flushes id = .stored call ret) :
      FlushTook node s (.release id) (s.released id call ret).coQueueNext

theorem FlushState.next_took {node : FlushNode} {s t : FlushState} {step : FlushStep}
    (taken : s.next node step = some t) : FlushTook node s step t := by
  unfold FlushState.next at taken
  split at taken <;> split at taken <;> grind [FlushTook]

end QemuGzvm.Block
