import QemuGzvm.Memory.AddrRange

/-!
Contract: memory regions and sections (`include/exec/memory.h`).

Owns:
- the fields of `struct MemoryRegion` that rendering, the topology diff and the
  accelerator's listener read;
- `MemoryRegionSection`, what a listener is handed.

A region is named by `MrId`, which stands for its address. The heap of regions
is a function of that name, so that a region's attributes can change while
sections that point to it are still queued.
-/

namespace QemuGzvm.Memory

open QemuGzvm.Library

abbrev MrId := Nat

/-- `struct MemoryRegionIoeventfd`; the notifier is named by its address. -/
structure MemoryRegionIoeventfd where
  addr : AddrRange
  matchData : Bool
  data : UInt64
  e : Nat
deriving DecidableEq, Repr

structure MemoryRegion where
  enabled : Bool := true
  addr : Nat := 0
  size : Nat := 0
  aliasRegion : Option MrId := none
  aliasOffset : Nat := 0
  subregions : List MrId := []
  terminates : Bool := false
  ram : Bool := false
  readonly : Bool := false
  nonvolatile : Bool := false
  unmergeable : Bool := false
  romDevice : Bool := false
  romdMode : Bool := true
  /-- The value of `memory_region_get_dirty_log_mask`. -/
  dirtyLogMask : BitVec 8 := 0
  /-- The host address of the region's `RAMBlock`. -/
  ramBlock : Option Nat := none
  /-- The coalesced ranges, relative to the region. -/
  coalesced : List AddrRange := []
  ioeventfds : List MemoryRegionIoeventfd := []
  /-- `ops->endianness == DEVICE_BIG_ENDIAN`; host and target are little-endian. -/
  bigEndian : Bool := false
deriving DecidableEq, Repr

abbrev Regions := MrId → MemoryRegion

def memoryRegionIsRam (mr : MemoryRegion) : Bool := mr.ram

def memoryRegionIsRom (mr : MemoryRegion) : Bool := mr.ram && mr.readonly

def memoryRegionIsRomd (mr : MemoryRegion) : Bool := mr.romDevice && mr.romdMode

/-- `memory_region_get_ram_ptr` of a region that is not an alias: it asserts the
`RAMBlock`. Flat ranges never name an alias. -/
def memoryRegionGetRamPtr (mr : MemoryRegion) : Checked Nat :=
  match mr.ramBlock with
  | some host => .ok host
  | none => .error .assertion

structure MemoryRegionSection where
  size : Nat
  mr : MrId
  offsetWithinRegion : Nat
  offsetWithinAddressSpace : Nat
  readonly : Bool := false
  nonvolatile : Bool := false
  unmergeable : Bool := false
deriving DecidableEq, Repr

end QemuGzvm.Memory
