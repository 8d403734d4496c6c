import QemuGzvm.Library.CheckedArray

/-!
Contract: the virtqueue of `hw/virtio/virtio.c`, its state and what its two layouts
share.

Owns:
- the rings' entries, `VirtQueue` and the part of `VirtIODevice` a queue reads;
- `Guest`, everything one call reads from guest memory;
- the errors that mark a device broken, with their texts;
- the mapping of one descriptor into the lists of a queue element.

Counters have the widths they have in C. Guest memory is not fixed during a call: a
descriptor that is read twice may have changed, so a read is told how many
descriptors the call has read before it. What the device writes to its own part of
a ring is part of `VirtQueue`, `none` where nothing was written since reset.

Left out: the suppression area and the `avail_event` that the device writes and no
function here reads, byte order, and the barriers.
-/

namespace QemuGzvm.Virtio

open QemuGzvm.Library

def virtqueueMaxSize : Nat := 1024

/-! ### Ring entries -/

structure VRingDesc where
  addr : UInt64 := 0
  len : UInt32 := 0
  flags : UInt16 := 0
  next : UInt16 := 0
deriving DecidableEq, Repr

structure VRingPackedDesc where
  addr : UInt64 := 0
  len : UInt32 := 0
  id : UInt16 := 0
  flags : UInt16 := 0
deriving DecidableEq, Repr

structure VRingUsedElem where
  id : UInt32
  len : UInt32
deriving DecidableEq, Repr

/-- `sizeof(VRingDesc)` and `sizeof(VRingPackedDesc)` -/
def sizeofDesc : Nat := 16

def descNext (flags : UInt16) : Bool := flags &&& 1 != 0

def descWrite (flags : UInt16) : Bool := flags &&& 2 != 0

def descIndirect (flags : UInt16) : Bool := flags &&& 4 != 0

def packedDescAvail : UInt16 := (1 : UInt16) <<< 7

def packedDescUsed : UInt16 := (1 : UInt16) <<< 15

def isDescAvail (flags : UInt16) (wrapCounter : Bool) : Bool :=
  let avail := flags &&& packedDescAvail != 0
  let used := flags &&& packedDescUsed != 0
  avail != used && avail == wrapCounter

/-! ### The queue -/

structure VRing where
  num : Nat
  desc : UInt64
  avail : UInt64
  used : UInt64
  /-- The length of the descriptor cache, if the region caches are set up. -/
  caches : Option Nat
deriving DecidableEq, Repr

structure VirtIODevice where
  broken : Bool := false
  disabled : Bool := false
  /-- `VIRTIO_F_RING_PACKED` -/
  ringPacked : Bool := false
  /-- `VIRTIO_F_IN_ORDER` -/
  inOrder : Bool := false
  /-- `VIRTIO_F_NOTIFY_ON_EMPTY` -/
  notifyOnEmpty : Bool := false
  /-- `VIRTIO_RING_F_EVENT_IDX` -/
  eventIdx : Bool := false
deriving DecidableEq, Repr

def virtioDeviceDisabled (vdev : VirtIODevice) : Bool := vdev.disabled || vdev.broken

structure Sg where
  addr : UInt64
  base : Nat
  len : Nat
deriving DecidableEq, Repr

structure VirtQueueElement where
  index : UInt32 := 0
  len : UInt32 := 0
  ndescs : UInt32 := 0
  inOrderFilled : Bool := false
  outSg : List Sg := []
  inSg : List Sg := []
deriving DecidableEq, Repr

structure VirtQueue where
  vdev : VirtIODevice
  vring : VRing
  usedElems : List VirtQueueElement
  lastAvailIdx : UInt16 := 0
  lastAvailWrapCounter : Bool := true
  shadowAvailIdx : UInt16 := 0
  shadowAvailWrapCounter : Bool := true
  usedIdx : UInt16 := 0
  usedWrapCounter : Bool := true
  signalledUsed : UInt16 := 0
  signalledUsedValid : Bool := false
  inuse : UInt32 := 0
  /-- `used->ring` of a split queue. -/
  usedRing : List (Option VRingUsedElem) := List.replicate vring.num none
  /-- The used descriptors of a packed queue. -/
  descRing : List (Option VRingPackedDesc) := List.replicate vring.num none
deriving DecidableEq, Repr

/-- What one call reads from guest memory and from the maps of it. -/
structure Guest where
  availIdx : UInt16 := 0
  availFlags : UInt16 := 0
  /-- `avail->ring[i]`; behind the last entry stands `used_event`. -/
  availRing : Nat → UInt16 := fun _ => 0
  /-- The descriptor table of a split ring, by the number of the read and the index. -/
  desc : Nat → Nat → VRingDesc := fun _ _ => {}
  /-- The flags the emptiness test of a packed ring reads. -/
  packedFlags : Nat → UInt16 := fun _ => 0
  packedDesc : Nat → Nat → VRingPackedDesc := fun _ _ => {}
  /-- The `flags` and the `off_wrap` of the area by which the guest suppresses
  notifications of a packed ring. -/
  eventFlags : UInt16 := 0
  eventOffWrap : UInt16 := 0
  indirectDesc : Nat → Nat → VRingDesc := fun _ _ => {}
  indirectPackedDesc : Nat → Nat → VRingPackedDesc := fun _ _ => {}
  /-- What `address_space_cache_init` returns for an indirect table. -/
  cacheInit : UInt64 → Nat → Int := fun _ len => len
  /-- `dma_memory_map`, by the pieces mapped before, the address, the length and the
  direction: where the piece is mapped and how much of it, never more than asked. -/
  dmaMap : Nat → UInt64 → Nat → Bool → Option (Nat × Nat) := fun _ _ len _ => some (1, len)

/-! ### Errors -/

inductive VirtioError where
  | sizeExceeded
  | indexNotAvailable (index : Nat)
  | regionCachesNotInitialized
  | cannotMapDescriptorRing
  | invalidIndirectSize
  | cannotMapIndirect
  | incorrectOrder
  | loopedDescriptor
  | descNext (index : Nat)
  | zeroSizedBuffer
  | tooManyWriteDescriptors
  | bogusDescriptor
  | usedIndexMoved (idx shadow : Nat)
deriving DecidableEq, Repr

def VirtioError.text : VirtioError → String
  | .sizeExceeded => "Virtqueue size exceeded"
  | .indexNotAvailable index => "Guest says index " ++ toString index ++ " is available"
  | .regionCachesNotInitialized => "Region caches not initialized"
  | .cannotMapDescriptorRing => "Cannot map descriptor ring"
  | .invalidIndirectSize => "Invalid size for indirect buffer table"
  | .cannotMapIndirect => "Cannot map indirect buffer"
  | .incorrectOrder => "Incorrect order for descriptors"
  | .loopedDescriptor => "Looped descriptor"
  | .descNext index => "Desc next is " ++ toString index
  | .zeroSizedBuffer => "virtio: zero sized buffers are not allowed"
  | .tooManyWriteDescriptors => "virtio: too many write descriptors in indirect table"
  | .bogusDescriptor => "virtio: bogus descriptor or out of resources"
  | .usedIndexMoved idx shadow =>
    "Guest moved used index from " ++ toString idx ++ " to " ++ toString shadow

/-- How the collection of an element ends early. -/
inductive Stop where
  | fault (fault : Fault)
  | report (error : VirtioError)
deriving DecidableEq, Repr

theorem stop_bind_eq_ok {α β : Type} {computation : Except Stop α} {next : α → Except Stop β}
    {result : β} :
    computation.bind next = .ok result ↔
      ∃ value, computation = .ok value ∧ next value = .ok result := by
  cases computation <;> simp [Except.bind]

theorem map_eq_ok {α β ε : Type} {computation : Except ε α} {f : α → β} {result : β} :
    computation.map f = .ok result ↔ ∃ value, computation = .ok value ∧ f value = result := by
  cases computation <;> simp [Except.map]

def virtioError (vq : VirtQueue) (_error : VirtioError) : VirtQueue :=
  { vq with vdev := { vq.vdev with broken := true } }

/-! ### Mapping a descriptor -/

structure SgLists where
  outSg : List Sg := []
  inSg : List Sg := []

/-- The loop `while (sz)`; `room` is `max_num_sg - num_sg`. The arrays of a pop have
`VIRTQUEUE_MAX_SIZE` entries, those in `sgs` starting at `offset`. -/
def mapDescPieces (guest : Guest) (isWrite : Bool) (offset : Nat) :
    Nat → List Sg → UInt64 → Nat → Except Stop (List Sg)
  | _, sgs, _, 0 => .ok sgs
  | 0, _, _, _ + 1 => .error (.report .tooManyWriteDescriptors)
  | room + 1, sgs, pa, sz + 1 =>
    match guest.dmaMap sgs.length pa (sz + 1) isWrite with
    | none => .error (.report .bogusDescriptor)
    | some (base, len) =>
      if virtqueueMaxSize ≤ offset + sgs.length then .error (.fault .outOfBounds)
      else
        mapDescPieces guest isWrite offset room (sgs ++ [{ addr := pa, base, len }])
          (pa + UInt64.ofNat len) (sz + 1 - len)

def virtqueueMapDesc (guest : Guest) (sgs : List Sg) (offset maxNumSg : Nat) (isWrite : Bool)
    (pa : UInt64) (sz : UInt32) : Except Stop (List Sg) :=
  if maxNumSg < sgs.length then .error (.fault .assertion)
  else if sz = 0 then .error (.report .zeroSizedBuffer)
  else mapDescPieces guest isWrite offset (maxNumSg - sgs.length) sgs pa sz.toNat

/-- The first half of the loop over a chain: a buffer the device writes goes behind
the buffers it reads. -/
def mapChainDesc (guest : Guest) (flags : UInt16) (addr : UInt64) (len : UInt32)
    (sgs : SgLists) : Except Stop SgLists :=
  if descWrite flags then
    (virtqueueMapDesc guest sgs.inSg sgs.outSg.length (virtqueueMaxSize - sgs.outSg.length) true
      addr len).map fun inSg => { sgs with inSg }
  else if sgs.inSg ≠ [] then .error (.report .incorrectOrder)
  else
    (virtqueueMapDesc guest sgs.outSg 0 virtqueueMaxSize false addr len).map
      fun outSg => { sgs with outSg }

/-! ### Descriptor caches -/

/-- `address_space_read_cached` of a descriptor, with its assertion that the access is
inside the cache of `mapped` bytes. -/
def readDescCached {Desc : Type} (mapped : Nat) (table : Nat → Nat → Desc) (reads i : Nat) :
    Checked Desc :=
  if mapped < (i + 1) * sizeofDesc then .error .assertion else .ok (table reads i)

/-- `address_space_cache_init` starts with `assert(len > 0)`. -/
def addressSpaceCacheInit (guest : Guest) (addr : UInt64) (len : UInt32) : Except Stop Int :=
  if len = 0 then .error (.fault .assertion) else .ok (guest.cacheInit addr len.toNat)

/-- The check that the descriptor cache covers the ring; gives its length. -/
def checkDescCache (vring : VRing) : Except Stop Nat :=
  match vring.caches with
  | none => .error (.report .regionCachesNotInitialized)
  | some len =>
    if len < vring.num * sizeofDesc then .error (.report .cannotMapDescriptorRing) else .ok len

/-- Maps an indirect table; gives the length of its cache and the number of its
entries. -/
def mapIndirect (guest : Guest) (addr : UInt64) (len : UInt32) : Except Stop (Nat × Nat) :=
  (addressSpaceCacheInit guest addr len).bind fun mapped =>
    if mapped < len.toNat then .error (.report .cannotMapIndirect)
    else .ok (mapped.toNat, len.toNat / sizeofDesc)

end QemuGzvm.Virtio
