import QemuGzvm.Library.Loop
import QemuGzvm.Physmem.Lookup

/-!
Contract: accesses through a flat view and the prediction of their outcome (`system/physmem.c`,
`memory_region_access_valid` and the dispatch of an access in `system/memory.c`).

Owns:
- the limits that the `ops` of a region put on an access, and `memory_access_size`;
- `flatview_translate` without an IOMMU, `flatview_access_valid`, and `flatview_read` and
  `flatview_write`, which take the same turns;
- what the turns of both loops do at an address, whatever `mru_section` is.

A flat range names no alias, so `memory_region_dispatch_read` and `_write` are made at the region
itself. The callbacks of a device return `MEMTX_OK`; the bytes moved are left out.
-/

namespace QemuGzvm.Physmem

open QemuGzvm.Library QemuGzvm.Memory

/-! ### Regions -/

structure MemTxAttrs where
  secure : Bool
  space : Nat
  user : Bool
  memory : Bool
  debug : Bool
  requesterId : Nat
  pid : Nat
  unspecified : Bool
deriving DecidableEq, Repr

structure MemoryRegionOps where
  validMinAccessSize : Nat
  validMaxAccessSize : Nat
  validUnaligned : Bool
  implUnaligned : Bool
  /-- `valid.accepts` is `unassigned_mem_accepts`. -/
  unassigned : Bool
deriving DecidableEq, Repr

def unassignedMemOps : MemoryRegionOps := ⟨0, 0, false, false, true⟩

structure AccessRegion extends MemoryRegion where
  ops : MemoryRegionOps
  ramDevice : Bool
  /-- `used_length` and `max_length` of the region's `RAMBlock` -/
  usedLength : Nat
  maxLength : Nat
deriving DecidableEq, Repr

def ioMemUnassigned : AccessRegion where
  ops := unassignedMemOps
  ramDevice := false
  usedLength := 0
  maxLength := 0

def memoryRegionSupportsDirectAccess (mr : AccessRegion) : Bool :=
  memoryRegionIsRomd mr.toMemoryRegion ||
    (memoryRegionIsRam mr.toMemoryRegion && !mr.ramDevice)

def memoryAccessIsDirect (mr : AccessRegion) (isWrite : Bool) (attrs : MemTxAttrs) : Bool :=
  memoryRegionSupportsDirectAccess mr &&
    (!(isWrite && !attrs.debug) || (!mr.readonly && !mr.romDevice))

/-! ### Sizes -/

def pow2floor (value : Nat) : Nat := if value = 0 then 0 else 2 ^ Nat.log2 value

/-- `addr & -addr`, as `unsigned`. -/
def alignSizeMax (addr : Nat) : Nat := (addr &&& (2 ^ 64 - addr)) % 2 ^ 32

def accessSizeMax (ops : MemoryRegionOps) (addr : Nat) : Nat :=
  let max := if ops.validMaxAccessSize = 0 then 4 else ops.validMaxAccessSize
  if !ops.implUnaligned && decide (alignSizeMax addr ≠ 0) && decide (alignSizeMax addr < max) then
    alignSizeMax addr
  else max

/-- An `int` as `hwaddr`. -/
def hwaddrOfInt (value : Nat) : Nat := if value < 2 ^ 31 then value else 2 ^ 64 - 2 ^ 32 + value

/-- `memory_access_size`, which takes the length as `unsigned`. -/
def memoryAccessSize (ops : MemoryRegionOps) (l addr : Nat) : Nat :=
  hwaddrOfInt (pow2floor (min (l % 2 ^ 32) (accessSizeMax ops addr)))

/-- The checks of `memory_region_access_valid` after the callback. -/
def withinLimits (ops : MemoryRegionOps) (addr size : Nat) : Bool :=
  (ops.validUnaligned || addr &&& ((size + 2 ^ 32 - 1) % 2 ^ 32) == 0) &&
    (ops.validMaxAccessSize == 0 ||
      (decide (size ≤ ops.validMaxAccessSize) && decide (ops.validMinAccessSize ≤ size)))

/-! ### Calls -/

/-- `valid.accepts` of every region of a device, constantly true where it is `NULL`. -/
abbrev Accepts := MrId → Nat → Nat → Bool → MemTxAttrs → Bool

/-- What all turns of one call share. -/
structure AccessCall where
  accepts : Accepts
  isWrite : Bool
  attrs : MemTxAttrs

variable (regions : MrId → AccessRegion)

def regionOf : DispatchMr → AccessRegion
  | .region mr => regions mr
  | _ => ioMemUnassigned

def directAt (call : AccessCall) (mr : DispatchMr) : Bool :=
  memoryAccessIsDirect (regionOf regions mr) call.isWrite call.attrs

def memoryRegionAccessValid (call : AccessCall) (mr : DispatchMr) (addr size : Nat) : Bool :=
  match mr with
  | .region number => !(regions number).ops.unassigned &&
      call.accepts number addr size call.isWrite call.attrs &&
      withinLimits (regions number).ops addr size
  | _ => false

/-! ### Translation -/

structure Found where
  mr : DispatchMr
  xlat : Nat
  plen : Nat
deriving DecidableEq, Repr

/-- The second half of `address_space_translate_internal`. -/
def foundIn (mrs : DispatchSection) (addr plen : Nat) : Found :=
  let offset := (addr + 2 ^ 64 - mrs.offsetWithinAddressSpace) % 2 ^ 64
  { mr := mrs.mr
    xlat := (offset + mrs.offsetWithinRegion) % 2 ^ 64
    plen := if memoryRegionIsRam (regionOf regions mrs.mr).toMemoryRegion then
        min (mrs.size - offset) plen
      else plen }

variable (page : TargetPage)

/-- `flatview_translate`, of a view that leads to no IOMMU. -/
def flatviewTranslate (d : AddressSpaceDispatch) (addr plen : Nat) :
    Checked (Found × AddressSpaceDispatch) :=
  (addressSpaceLookupRegion page d addr true).bind fun (number, d) =>
    (readAt d.sections number).bind fun mrs => .ok (foundIn regions mrs addr plen, d)

def addrAfter (addr l : Nat) : Nat := (addr + l) % 2 ^ 64

def lenAfter (len l : Nat) : Nat := (len + 2 ^ 64 - l) % 2 ^ 64

/-! ### The prediction -/

structure Cursor where
  d : AddressSpaceDispatch
  addr : Nat
  len : Nat

def flatviewAccessValidTurn (call : AccessCall) (cursor : Cursor) : Checked (Turn Cursor Bool) :=
  if cursor.len = 0 then .ok (.finish true)
  else
    (flatviewTranslate regions page cursor.d cursor.addr cursor.len).bind fun (found, d) =>
      if directAt regions call found.mr then
        .ok (.more ⟨d, addrAfter cursor.addr found.plen, lenAfter cursor.len found.plen⟩)
      else
        -- The size is that for the guest's address, not for the offset in the region.
        let l := memoryAccessSize (regionOf regions found.mr).ops found.plen cursor.addr
        if memoryRegionAccessValid regions call found.mr found.xlat (l % 2 ^ 32) then
          .ok (.more ⟨d, addrAfter cursor.addr l, lenAfter cursor.len l⟩)
        else .ok (.finish false)

def flatviewAccessValid (call : AccessCall) (fuel : Nat) (d : AddressSpaceDispatch)
    (addr len : Nat) : Checked Bool :=
  runLoop (flatviewAccessValidTurn regions page call) fuel ⟨d, addr, len⟩

/-! ### The access -/

abbrev MemTxResult := UInt32

def memtxDecodeError : MemTxResult := 2

def memtxAccessError : MemTxResult := 4

def flatviewAccessAllowed (call : AccessCall) (mr : DispatchMr) : Bool :=
  !call.attrs.memory || memoryRegionIsRam (regionOf regions mr).toMemoryRegion

/-- `flatview_read_continue_step` and `flatview_write_continue_step`: the result and `*l`.
`ldn_he_p` and `stn_he_p` know no other sizes than 1, 2, 4 and 8. -/
def flatviewContinueStep (call : AccessCall) (found : Found) : Checked (MemTxResult × Nat) :=
  let mr := regionOf regions found.mr
  if !flatviewAccessAllowed regions call found.mr then .ok (memtxAccessError, found.plen)
  else if directAt regions call found.mr then
    -- `qemu_ram_ptr_length`
    if found.xlat < mr.usedLength then .ok (0, min found.plen (mr.maxLength - found.xlat))
    else .error .assertion
  else
    let l := memoryAccessSize mr.ops found.plen found.xlat
    if l ∈ [1, 2, 4, 8] then
      .ok (if memoryRegionAccessValid regions call found.mr found.xlat l then 0
        else memtxDecodeError, l)
    else .error .assertion

structure AccessCursor extends Cursor where
  found : Found
  result : MemTxResult

/-- One turn of `flatview_read_continue` or `flatview_write_continue`. -/
def flatviewContinueTurn (call : AccessCall) (cursor : AccessCursor) :
    Checked (Turn AccessCursor MemTxResult) :=
  (flatviewContinueStep regions call cursor.found).bind fun (result, l) =>
    let result := cursor.result ||| result
    let len := lenAfter cursor.len l
    let addr := addrAfter cursor.addr l
    if len = 0 then .ok (.finish result)
    else
      (flatviewTranslate regions page cursor.d addr len).bind fun (found, d) =>
        .ok (.more ⟨⟨d, addr, len⟩, found, result⟩)

def flatviewAccess (call : AccessCall) (fuel : Nat) (d : AddressSpaceDispatch) (addr len : Nat) :
    Checked MemTxResult :=
  (flatviewTranslate regions page d addr len).bind fun (found, d) =>
    if !flatviewAccessAllowed regions call found.mr then .ok memtxAccessError
    else runLoop (flatviewContinueTurn regions page call) fuel ⟨⟨d, addr, len⟩, found, 0⟩

end QemuGzvm.Physmem
