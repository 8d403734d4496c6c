import QemuGzvm.Library.Loop
import QemuGzvm.Virtio.PackedRing

/-!
Contract: `virtqueue_get_avail_bytes` of `hw/virtio/virtio.c` for both layouts.

Owns:
- `virtqueue_num_heads`;
- the count of the bytes of one element, in the ring or in an indirect table;
- one turn of the scan over the available elements, and the scan;
- the bound on the number of its turns.

The guest may change its memory at any time, so the scan is told what the memory
holds at each of its turns.
-/

namespace QemuGzvm.Virtio

open QemuGzvm.Library

/-- The bytes counted so far; also the bounds at which a scan has seen enough. -/
structure AvailBytes where
  inTotal : UInt32 := 0
  outTotal : UInt32 := 0
deriving DecidableEq, Repr

def AvailBytes.add (totals : AvailBytes) (flags : UInt16) (len : UInt32) : AvailBytes :=
  if descWrite flags then { totals with inTotal := totals.inTotal + len }
  else { totals with outTotal := totals.outTotal + len }

def AvailBytes.reaches (totals limits : AvailBytes) : Bool :=
  decide (limits.inTotal ≤ totals.inTotal ∧ limits.outTotal ≤ totals.outTotal)

/-- How the count of a chain ends: with enough bytes, or at its last descriptor, with
the number of buffers. -/
inductive ChainCount where
  | enough (totals : AvailBytes)
  | ended (numBufs : Nat) (totals : AvailBytes)

structure AvailScan where
  turn : Nat := 0
  queue : VirtQueue
  idx : Nat
  wrapCounter : Bool := true
  totalBufs : Nat := 0
  totals : AvailBytes := {}

/-! ### Split rings -/

/-- `none` is the error, after which the device is broken. -/
def virtqueueNumHeads (guest : Guest) (vq : VirtQueue) (idx : Nat) : Option UInt16 × VirtQueue :=
  let (availIdx, vq) :=
    if vq.shadowAvailIdx.toNat ≠ idx then (vq.shadowAvailIdx, vq) else vringAvailIdx guest vq
  let numHeads := availIdx - UInt16.ofNat idx
  if vq.vring.num < numHeads.toNat then
    (none, virtioError vq (.usedIndexMoved idx vq.shadowAvailIdx.toNat))
  else (some numHeads, vq)

/-- The loop over a chain; `room` is `max - num_bufs`. -/
def splitCountChain (table : Nat → Nat → VRingDesc) (mapped max : Nat) (limits : AvailBytes) :
    Nat → Nat → Nat → VRingDesc → AvailBytes → Except Stop ChainCount
  | 0, _, _, _, _ => .error (.report .loopedDescriptor)
  | room + 1, reads, numBufs, desc, totals =>
    let totals := totals.add desc.flags desc.len
    if totals.reaches limits then .ok (.enough totals)
    else
      (virtqueueSplitReadNextDesc table mapped reads desc max).bind fun
        | none => .ok (.ended (numBufs + 1) totals)
        | some next =>
          splitCountChain table mapped max limits room (reads + 1) (numBufs + 1) next totals

/-- Counts the element at `head`; an indirect table counts as one buffer. -/
def splitCountElement (guest : Guest) (num mapped : Nat) (limits : AvailBytes) (head : UInt32)
    (totalBufs : Nat) (totals : AvailBytes) : Except Stop ChainCount :=
  ((readDescCached mapped guest.desc 0 head.toNat).mapError .fault).bind fun desc =>
    if descIndirect desc.flags then
      if desc.len = 0 ∨ desc.len.toNat % sizeofDesc ≠ 0 then .error (.report .invalidIndirectSize)
      else if num ≤ totalBufs then .error (.report .loopedDescriptor)
      else
        (mapIndirect guest desc.addr desc.len).bind fun (mapped, max) =>
          ((readDescCached mapped guest.indirectDesc 0 0).mapError .fault).bind fun first =>
            (splitCountChain guest.indirectDesc mapped max limits max 1 0 first totals).map fun
              | .enough totals => .enough totals
              | .ended _ totals => .ended (totalBufs + 1) totals
    else
      splitCountChain guest.desc mapped num limits (num - totalBufs) 1 totalBufs desc totals

def splitAvailTurn (guests : Nat → Guest) (mapped : Nat) (limits : AvailBytes)
    (scan : AvailScan) : Checked (Turn AvailScan (AvailBytes × VirtQueue)) :=
  let guest := guests scan.turn
  match virtqueueNumHeads guest scan.queue scan.idx with
  | (none, vq) => .ok (.finish ({}, vq))
  | (some heads, vq) =>
    if heads = 0 then .ok (.finish (scan.totals, vq))
    else
      match virtqueueGetHead guest vq (UInt32.ofNat scan.idx) with
      | .error error => .ok (.finish ({}, virtioError vq error))
      | .ok head =>
        match splitCountElement guest vq.vring.num mapped limits head scan.totalBufs
          scan.totals with
        | .error (.fault fault) => .error fault
        | .error (.report error) => .ok (.finish ({}, virtioError vq error))
        | .ok (.enough totals) => .ok (.finish (totals, vq))
        | .ok (.ended totalBufs totals) =>
          .ok (.more
            { scan with
              turn := scan.turn + 1, queue := vq, idx := scan.idx + 1, totalBufs, totals })

/-! ### Packed rings -/

/-- The loop over a chain; `room` is `max - num_bufs`. -/
def packedCountChain (num : Nat) (table : Nat → Nat → VRingPackedDesc) (mapped max : Nat)
    (indirect : Bool) (limits : AvailBytes) :
    Nat → Nat → Nat → Nat → VRingPackedDesc → AvailBytes → Except Stop ChainCount
  | 0, _, _, _, _, _ => .error (.report .loopedDescriptor)
  | room + 1, reads, numBufs, next, desc, totals =>
    let totals := totals.add desc.flags desc.len
    if totals.reaches limits then .ok (.enough totals)
    else
      ((virtqueuePackedReadNextDesc num table mapped reads desc max next indirect).mapError
        .fault).bind fun
          | none => .ok (.ended (numBufs + 1) totals)
          | some (desc, next) =>
            packedCountChain num table mapped max indirect limits room (reads + 1)
              (numBufs + 1) next desc totals

/-- Counts the element at `idx`, whose first descriptor was read. Unlike the count for a
split ring this one does not reject an indirect table of length 0. -/
def packedCountElement (guest : Guest) (num mapped : Nat) (limits : AvailBytes)
    (desc : VRingPackedDesc) (idx totalBufs : Nat) (totals : AvailBytes) :
    Except Stop ChainCount :=
  if descIndirect desc.flags then
    if desc.len.toNat % sizeofDesc ≠ 0 then .error (.report .invalidIndirectSize)
    else if num ≤ totalBufs then .error (.report .loopedDescriptor)
    else
      (mapIndirect guest desc.addr desc.len).bind fun (mapped, max) =>
        ((readDescCached mapped guest.indirectPackedDesc 0 0).mapError .fault).bind fun first =>
          (packedCountChain num guest.indirectPackedDesc mapped max true limits max 1 0 0 first
            totals).map fun
              | .enough totals => .enough totals
              | .ended _ totals => .ended (totalBufs + 1) totals
  else
    packedCountChain num guest.packedDesc mapped num false limits (num - totalBufs) 1 totalBufs idx
      desc totals

def packedAvailTurn (guests : Nat → Guest) (mapped : Nat) (limits : AvailBytes)
    (scan : AvailScan) : Checked (Turn AvailScan (AvailBytes × VirtQueue)) :=
  let guest := guests scan.turn
  let vq := scan.queue
  (readDescCached mapped guest.packedDesc 0 scan.idx).bind fun desc =>
    if !isDescAvail desc.flags scan.wrapCounter then
      .ok (.finish (scan.totals,
        { vq with
          shadowAvailIdx := UInt16.ofNat scan.idx
          shadowAvailWrapCounter := scan.wrapCounter }))
    else
      match packedCountElement guest vq.vring.num mapped limits desc scan.idx scan.totalBufs
        scan.totals with
      | .error (.fault fault) => .error fault
      | .error (.report error) => .ok (.finish ({}, virtioError vq error))
      | .ok (.enough totals) => .ok (.finish (totals, vq))
      | .ok (.ended totalBufs totals) =>
        let idx := scan.idx + (totalBufs - scan.totalBufs)
        let wraps := decide (vq.vring.num ≤ idx)
        .ok (.more
          { scan with
            turn := scan.turn + 1
            idx := if wraps then idx - vq.vring.num else idx
            wrapCounter := scan.wrapCounter ^^ wraps
            totalBufs, totals })

/-! ### The scan -/

def AvailScan.start (vq : VirtQueue) : AvailScan :=
  { queue := vq, idx := vq.lastAvailIdx.toNat, wrapCounter := vq.lastAvailWrapCounter }

def availTurn (guests : Nat → Guest) (vq : VirtQueue) (mapped : Nat) (limits : AvailBytes) :
    AvailScan → Checked (Turn AvailScan (AvailBytes × VirtQueue)) :=
  if vq.vdev.ringPacked then packedAvailTurn guests mapped limits
  else splitAvailTurn guests mapped limits

/-- Returns the result of the source, `-1` or the remembered index, and the two counts.
Each turn counts one buffer at least and no scan counts more than there are in the
ring, so that `num + 2` turns suffice. -/
def virtqueueGetAvailBytes (guests : Nat → Guest) (vq : VirtQueue) (limits : AvailBytes) :
    Checked (Int × AvailBytes × VirtQueue) :=
  if vq.vring.desc = 0 then .ok (-1, {}, vq)
  else
    match vq.vring.caches with
    | none => .ok (-1, {}, vq)
    | some mapped =>
      if mapped < vq.vring.num * sizeofDesc then
        .ok (-1, {}, virtioError vq .cannotMapDescriptorRing)
      else
        (runLoop (availTurn guests vq mapped limits) (vq.vring.num + 2)
          (.start vq)).map fun (totals, vq) => (vq.shadowAvailIdx.toNat, totals, vq)

end QemuGzvm.Virtio
