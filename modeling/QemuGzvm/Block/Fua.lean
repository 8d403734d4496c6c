import QemuGzvm.Block.Flush
import QemuGzvm.Block.Padding

/-!
Contract: writes with `BDRV_REQ_FUA` through a graph of nodes (`bdrv_co_pwritev_part`,
`bdrv_co_do_zero_pwritev`, `bdrv_aligned_pwritev`, `bdrv_co_do_pwrite_zeroes`,
`bdrv_driver_pwritev`, `bdrv_co_flush` of `block/io.c`), one request at a time.

Owns:
- nodes with their limits, flags and children;
- what a driver call does: it goes to the medium where a node has no children, and makes
  requests to children otherwise;
- the functions above, as they change the generations and what happens on the media.

Children have smaller numbers than their parents, so that the graph has no cycles. With one
request at a time a flush never finds `active_flush_req` set.
-/

namespace QemuGzvm.Block

/-! ### What happens -/

inductive BlockEvent where
  | wrote (bs : Nat)
  | flushToDisk (bs : Nat)
  | finished (bs : Nat)
deriving DecidableEq, Repr

structure BlockWorld where
  writeGen : Nat → UInt32
  flushedGen : Nat → UInt32
  events : List BlockEvent

def BlockWorld.record (world : BlockWorld) (event : BlockEvent) : BlockWorld :=
  { world with events := event :: world.events }

/-- `bdrv_co_write_req_finish`, as far as flushes see it. -/
def BlockWorld.finish (world : BlockWorld) (bs : Nat) : BlockWorld :=
  { world with
    writeGen := Function.update world.writeGen bs (world.writeGen bs + 1)
    events := .finished bs :: world.events }

def BlockWorld.storeGen (world : BlockWorld) (bs : Nat) (gen : UInt32) : BlockWorld :=
  { world with flushedGen := Function.update world.flushedGen bs gen }

/-! ### Nodes and drivers -/

structure BdrvRequestFlags where
  fua : Bool
  zeroWrite : Bool
  writeCompressed : Bool
  noFallback : Bool
deriving DecidableEq, Repr

structure WriteRequest where
  offset : Nat
  bytes : Nat
  flags : BdrvRequestFlags
  /-- What `qemu_iovec_is_zero` says of the data that is written from an offset on, with the
  padding that has been added to it. -/
  isZero : Nat → Bool

inductive NodeOp where
  | write (request : WriteRequest)
  | flush

structure ChildOp (bs : Nat) where
  child : Fin bs
  op : NodeOp

inductive DriverCall where
  | pwritev (offset bytes : Nat) (fua : Bool)
  | pwriteZeroes (offset bytes : Nat) (fua : Bool)
  | pwritevCompressed (offset bytes : Nat)
  | flush
  | flushToOs
  | flushToDisk
deriving DecidableEq, Repr

structure BlockEdge (bs : Nat) where
  child : Fin bs
  /-- `child->perm & (BLK_PERM_WRITE | BLK_PERM_WRITE_UNCHANGED)` -/
  writable : Bool

structure BlockNode (bs : Nat) where
  flush : FlushNode
  inserted : Bool
  /-- `BDRV_REQ_FUA` in `supported_write_flags` and in `supported_zero_flags`. -/
  supportedWriteFua : Bool
  supportedZeroFua : Bool
  supportedZeroNoFallback : Bool
  bdrvCoPwriteZeroes : Bool
  canCompress : Bool
  /-- `detect_zeroes` is not `BLOCKDEV_DETECT_ZEROES_OPTIONS_OFF`. -/
  detectZeroes : Bool
  bl : BlockLimits
  children : List (BlockEdge bs)

/-- What the drivers do: the requests they make to children, and what they return if these are
successful. A driver returns the first error of its requests, and 0 or an error of its own. -/
structure BlockDrivers where
  requests : BlockWorld → (bs : Nat) → DriverCall → List (ChildOp bs)
  ret : BlockWorld → Nat → DriverCall → Int
  ret_le : ∀ world bs call, ret world bs call ≤ 0

def enotsup : Int := -95

def eperm : Int := -1

def eio : Int := -5

def enomedium : Int := -123

/-! ### At one node -/

section AtNode

variable {bs : Nat} (node : BlockNode bs) (drivers : BlockDrivers)
  (below : Fin bs → NodeOp → BlockWorld → Int × BlockWorld)

def runChildren : List (ChildOp bs) → BlockWorld → Int × BlockWorld
  | [], world => (0, world)
  | op :: rest, world =>
    let answer := below op.child op.op world
    if answer.1 < 0 then answer else runChildren rest answer.2

def driverCall (call : DriverCall) (world : BlockWorld) : Int × BlockWorld :=
  let answer := runChildren below (drivers.requests world bs call) world
  if answer.1 < 0 then answer else (drivers.ret answer.2 bs call, answer.2)

/-- A driver call that writes, unless it returns `-ENOTSUP`. -/
def driverWrite (call : DriverCall) (world : BlockWorld) : Int × BlockWorld :=
  let answer := driverCall drivers below call world
  if node.children.isEmpty ∧ answer.1 ≠ enotsup then (answer.1, answer.2.record (.wrote bs))
  else answer

def flushChildren : List (BlockEdge bs) → Int → BlockWorld → Int × BlockWorld
  | [], ret, world => (ret, world)
  | edge :: rest, ret, world =>
    if edge.writable then
      let answer := below edge.child .flush world
      flushChildren rest (if ret = 0 then answer.1 else ret) answer.2
    else flushChildren rest ret world

/-- From the comparison of the generations to `flush_children`. -/
def flushMedium (currentGen : UInt32) (world : BlockWorld) : Int × BlockWorld :=
  if node.flush.noFlush ∨ world.flushedGen bs = currentGen then (0, world)
  else if node.flush.bdrvCoFlushToDisk ∨ node.flush.bdrvAioFlush then
    driverCall drivers below .flushToDisk (world.record (.flushToDisk bs))
  else (0, world)

def flushOs (world : BlockWorld) : Int × BlockWorld :=
  if node.flush.bdrvCoFlushToOs then driverCall drivers below .flushToOs world else (0, world)

/-- `bdrv_co_flush` up to `out`. -/
def flushBody (currentGen : UInt32) (world : BlockWorld) : Int × BlockWorld :=
  if node.flush.bdrvCoFlush then driverCall drivers below .flush world
  else
    let os := flushOs node drivers below world
    if os.1 < 0 then os
    else
      let medium := flushMedium node drivers below currentGen os.2
      if medium.1 < 0 then medium else flushChildren below node.children 0 medium.2

def bdrvCoFlush (world : BlockWorld) : Int × BlockWorld :=
  if !node.inserted || node.flush.readOnly || node.flush.sg then (0, world)
  else
    let answer := flushBody node drivers below (world.writeGen bs) world
    if answer.1 = 0 then (0, answer.2.storeGen bs (world.writeGen bs)) else answer

def bdrvDriverPwritev (offset bytes : Nat) (fua : Bool) (world : BlockWorld) : Int × BlockWorld :=
  let wanted := fua && !node.flush.noFlush
  let emulateFua := wanted && !node.supportedWriteFua
  let answer := driverWrite node drivers below
    (.pwritev offset bytes (wanted && node.supportedWriteFua)) world
  if answer.1 = 0 ∧ emulateFua then bdrvCoFlush node drivers below answer.2 else answer

/-- The loop of `bdrv_aligned_pwritev` over pieces of at most `max_transfer` bytes. -/
def transferLoop (fua : Bool) (offset bytesRemaining : Nat) (world : BlockWorld) :
    Int × BlockWorld :=
  if 0 < bytesRemaining then
    let num := min bytesRemaining node.bl.transfer
    let localFua := fua && !(decide (num < bytesRemaining) && !node.supportedWriteFua)
    let answer := bdrvDriverPwritev node drivers below offset num localFua world
    if answer.1 < 0 then answer
    else transferLoop fua (offset + num) (bytesRemaining - num) answer.2
  else (0, world)
termination_by bytesRemaining
decreasing_by
  have := node.bl.transfers
  unfold BlockLimits.transfer
  omega

/-- What a turn of `bdrv_co_do_pwrite_zeroes` gives: the return value, whether a flush is
needed, the bytes that are through. -/
structure ZeroTurn where
  ret : Int
  needFlush : Bool
  num : Nat
  world : BlockWorld

/-- `bdrv_co_pwrite_zeroes` of the driver, if it has one. -/
def driverPwriteZeroes (flags : BdrvRequestFlags) (offset num : Nat) (world : BlockWorld) :
    Int × BlockWorld :=
  if node.bdrvCoPwriteZeroes then
    driverWrite node drivers below
      (.pwriteZeroes offset num (flags.fua && node.supportedZeroFua)) world
  else (enotsup, world)

def zeroTurn (flags : BdrvRequestFlags) (offset num : Nat) (needFlush : Bool)
    (world : BlockWorld) : ZeroTurn :=
  let zeroes := driverPwriteZeroes node drivers below flags offset num world
  if zeroes.1 = enotsup ∧ !flags.noFallback then
    let written := bdrvDriverPwritev node drivers below offset (min num node.bl.bounce)
      (flags.fua && node.supportedWriteFua) zeroes.2
    ⟨written.1, needFlush || (flags.fua && !node.supportedWriteFua), min num node.bl.bounce,
      written.2⟩
  else
    ⟨zeroes.1, needFlush || (decide (zeroes.1 ≠ enotsup) && flags.fua && !node.supportedZeroFua),
      num, zeroes.2⟩

theorem zeroTurn_num_pos (flags : BdrvRequestFlags) (offset : Nat) (needFlush : Bool)
    (world : BlockWorld) {num : Nat} (some : 0 < num) :
    0 < (zeroTurn node drivers below flags offset num needFlush world).num := by
  unfold zeroTurn
  dsimp only
  split
  · exact Nat.lt_min.mpr ⟨some, node.bl.bounce_pos⟩
  · exact some

def zeroLoop (flags : BdrvRequestFlags) (head tail : Fin node.bl.zeroAlignment)
    (offset bytes : Nat) (needFlush : Bool) (world : BlockWorld) : Int × Bool × BlockWorld :=
  if 0 < bytes then
    let num := zeroPiece node.bl head tail bytes
    let turn := zeroTurn node drivers below flags offset num needFlush world
    if turn.ret = 0 then
      zeroLoop flags
        (if head.val = 0 then head
        else ⟨(head + num) % node.bl.zeroAlignment, Nat.mod_lt _ node.bl.zeroAlignment_pos⟩)
        tail (offset + turn.num) (bytes - turn.num) turn.needFlush turn.world
    else (turn.ret, turn.needFlush, turn.world)
  else (0, needFlush, world)
termination_by bytes
decreasing_by
  next some _ =>
    have taken := zeroTurn_num_pos node drivers below flags offset needFlush world
      (zeroPiece_pos node.bl some head.isLt tail.isLt)
    omega

def bdrvCoDoPwriteZeroes (offset bytes : Nat) (flags : BdrvRequestFlags) (world : BlockWorld) :
    Int × BlockWorld :=
  if flags.noFallback && !node.supportedZeroNoFallback then (enotsup, world)
  else
    let low := node.bl.zeroAlignment_pos
    let done := zeroLoop node drivers below flags ⟨offset % node.bl.zeroAlignment, Nat.mod_lt _ low⟩
      ⟨(offset + bytes) % node.bl.zeroAlignment, Nat.mod_lt _ low⟩ offset bytes false world
    if done.1 = 0 ∧ done.2.1 then bdrvCoFlush node drivers below done.2.2
    else (done.1, done.2.2)

def bdrvDriverPwritevCompressed (offset bytes : Nat) (world : BlockWorld) : Int × BlockWorld :=
  if node.canCompress then driverWrite node drivers below (.pwritevCompressed offset bytes) world
  else (enotsup, world)

/-- A part is written as zeroes if it says so, or is found to be zero. -/
def zeroes (part : AlignedPart) (isZero : Bool) : Bool :=
  part.zeroWrite || (node.detectZeroes && node.bdrvCoPwriteZeroes && isZero)

/-- `bdrv_aligned_pwritev` between `bdrv_co_write_req_prepare` and `bdrv_co_write_req_finish`. -/
def alignedBody (part : AlignedPart) (flags : BdrvRequestFlags) (isZero : Bool)
    (world : BlockWorld) : Int × BlockWorld :=
  if node.flush.readOnly then (eperm, world)
  else if zeroes node part isZero then
    bdrvCoDoPwriteZeroes node drivers below part.offset part.bytes flags world
  else if flags.writeCompressed then
    bdrvDriverPwritevCompressed node drivers below part.offset part.bytes world
  else if part.bytes ≤ node.bl.transfer then
    bdrvDriverPwritev node drivers below part.offset part.bytes flags.fua world
  else transferLoop node drivers below flags.fua part.offset part.bytes world

def bdrvAlignedPwritev (part : AlignedPart) (flags : BdrvRequestFlags) (isZero : Bool)
    (world : BlockWorld) : Int × BlockWorld :=
  let answer := alignedBody node drivers below part flags isZero world
  (if answer.1 ≥ 0 then 0 else answer.1, answer.2.finish bs)

def writeParts (flags : BdrvRequestFlags) (isZero : Nat → Bool) :
    List AlignedPart → BlockWorld → Int × BlockWorld
  | [], world => (0, world)
  | part :: rest, world =>
    let answer := bdrvAlignedPwritev node drivers below part flags (isZero part.offset) world
    if answer.1 < 0 then answer else writeParts flags isZero rest answer.2

/-- The calls of `bdrv_aligned_pwritev` that a request leads to, if it is accepted. -/
def requestParts (request : WriteRequest) : List AlignedPart :=
  let align := node.bl.requestAlignment
  if request.bytes = 0 ∧ request.offset % align ≠ 0 then []
  else if request.flags.zeroWrite then zeroParts align request.offset request.bytes
  else [dataPart align request.offset request.bytes]

/-- What makes `bdrv_co_pwritev_part` return before it does anything. -/
def refused (request : WriteRequest) : Option Int :=
  if !node.inserted then some enomedium
  else if bdrvMaxLength < request.offset + request.bytes then some eio
  else if !request.flags.zeroWrite && decide (bdrvRequestMaxBytes < request.bytes) then some eio
  else if request.flags.noFallback &&
      decide (request.offset % node.bl.requestAlignment ≠ 0 ∨
        request.bytes % node.bl.requestAlignment ≠ 0) then some enotsup
  else none

def bdrvCoPwritevPart (request : WriteRequest) (world : BlockWorld) : Int × BlockWorld :=
  match refused node request with
  | some ret => (ret, world)
  | none => writeParts node drivers below request.flags request.isZero
      (requestParts node request) world

def runOp : NodeOp → BlockWorld → Int × BlockWorld
  | .write request => bdrvCoPwritevPart node drivers below request
  | .flush => bdrvCoFlush node drivers below

end AtNode

/-! ### In the graph -/

abbrev BlockGraph := (bs : Nat) → BlockNode bs

/-- A request to a node, with the requests to its children that it leads to. -/
def blockOp (graph : BlockGraph) (drivers : BlockDrivers) (bs : Nat) (op : NodeOp)
    (world : BlockWorld) : Int × BlockWorld :=
  runOp (graph bs) drivers (fun child op world => blockOp graph drivers child op world) op world
termination_by bs
decreasing_by exact child.isLt

end QemuGzvm.Block
