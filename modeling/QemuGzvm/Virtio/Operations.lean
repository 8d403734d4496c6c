import QemuGzvm.Virtio.PackedRing

/-!
Contract: the operations a device model calls on a virtqueue of either layout.

Owns:
- `virtqueue_ordered_fill` and `virtqueue_ordered_flush`;
- `virtqueue_fill`, `virtqueue_flush`, `virtqueue_push`, `virtqueue_pop`,
  `virtqueue_unpop`, `virtqueue_rewind` and `virtqueue_drop_all`.

The loops of `virtqueue_drop_all` run as long as the guest makes elements available:
they are given what the guest's memory holds at each turn, and are unfinished where
that record ends before the loop does.
-/

namespace QemuGzvm.Virtio

open QemuGzvm.Library

/-! ### In-order completion -/

/-- The loop of `virtqueue_ordered_fill`. A turn that finds `ndescs` zero makes no
step, so that the loop may not end. -/
def orderedFillSearch (num : Nat) (index len : UInt32) (maxSteps : Nat) :
    Nat → Nat → Nat → List VirtQueueElement → Checked (List VirtQueueElement)
  | 0, _, _, _ => .error .unfinished
  | fuel + 1, i, steps, elems =>
    if maxSteps < steps then .ok elems
    else
      (readAt elems i).bind fun here =>
        if here.index = index then .ok (elems.set i { here with len, inOrderFilled := true })
        else
          let i := i + here.ndescs.toNat
          (readAt elems i).bind fun there =>
            orderedFillSearch num index len maxSteps fuel (if num ≤ i then i - num else i)
              (steps + there.ndescs.toNat) elems

/-- With the number of turns given here the search ends or repeats itself. -/
def virtqueueOrderedFill (vq : VirtQueue) (elem : VirtQueueElement) (len : UInt32) :
    Checked VirtQueue :=
  let maxSteps := (vq.lastAvailIdx.toUInt32 - vq.usedIdx.toUInt32).toNat % vq.vring.num
  (orderedFillSearch vq.vring.num elem.index len maxSteps
    ((maxSteps + 2) * (vq.usedElems.length + 1)) (vq.usedIdx.toNat % vq.vring.num) 0
    vq.usedElems).bind fun usedElems => .ok { vq with usedElems }

/-- The loop of `virtqueue_ordered_flush`. A turn clears one flag, so that there are
no more turns than elements. -/
def orderedFlushRun : Nat → Nat → UInt32 → VirtQueue → Checked (UInt32 × VirtQueue)
  | 0, _, _, _ => .error .unfinished
  | fuel + 1, i, ndescs, vq =>
    (readAt vq.usedElems i).bind fun elem =>
      if !elem.inOrderFilled then .ok (ndescs, vq)
      else
        let vq :=
          if vq.vdev.ringPacked then
            if i ≠ vq.usedIdx.toNat then virtqueuePackedFillDesc vq elem ndescs else vq
          else vringUsedWrite vq { id := elem.index, len := elem.len } i
        let vq :=
          { vq with usedElems := vq.usedElems.set i { elem with inOrderFilled := false } }
        let i := i + elem.ndescs.toNat
        orderedFlushRun fuel (if vq.vring.num ≤ i then i - vq.vring.num else i)
          (ndescs + elem.ndescs) vq

def virtqueueOrderedFlush (vq : VirtQueue) : Checked VirtQueue :=
  let i := vq.usedIdx.toNat % vq.vring.num
  if (if vq.vdev.ringPacked then vq.vring.desc else vq.vring.used) = 0 then .ok vq
  else
    (readAt vq.usedElems i).bind fun first =>
      if !first.inOrderFilled then .ok vq
      else
        (orderedFlushRun (vq.usedElems.length + 1) i 0 vq).bind fun (ndescs, vq) =>
          if vq.vdev.ringPacked then
            (readAt vq.usedElems vq.usedIdx.toNat).bind fun elem =>
              let vq := packedAdvanceUsed (virtqueuePackedFillDesc vq elem 0) ndescs
              .ok { vq with inuse := vq.inuse - ndescs }
          else
            let new := vq.usedIdx + ndescs.toUInt16
            .ok { vq with
                  usedIdx := new
                  inuse := vq.inuse - ndescs
                  signalledUsedValid :=
                    vq.signalledUsedValid &&
                      !decide ((new - vq.signalledUsed).toInt16.toInt <
                        (new - vq.usedIdx).toNat) }

/-! ### Completion -/

def virtqueueFill (vq : VirtQueue) (elem : VirtQueueElement) (len idx : UInt32) :
    Checked VirtQueue :=
  if virtioDeviceDisabled vq.vdev then .ok vq
  else if vq.vdev.inOrder then virtqueueOrderedFill vq elem len
  else if vq.vdev.ringPacked then virtqueuePackedFill vq elem len idx
  else .ok (virtqueueSplitFill vq elem len idx)

def virtqueueFlush (vq : VirtQueue) (count : UInt32) : Checked VirtQueue :=
  if virtioDeviceDisabled vq.vdev then .ok { vq with inuse := vq.inuse - count }
  else if vq.vdev.inOrder then virtqueueOrderedFlush vq
  else if vq.vdev.ringPacked then virtqueuePackedFlush vq count
  else .ok (virtqueueSplitFlush vq count)

section Layouts

variable {vq : VirtQueue} (enabled : virtioDeviceDisabled vq.vdev = false)
  (unordered : vq.vdev.inOrder = false)
include enabled unordered

theorem virtqueueFill_split (split : vq.vdev.ringPacked = false) (elem : VirtQueueElement)
    (len idx : UInt32) :
    virtqueueFill vq elem len idx = .ok (virtqueueSplitFill vq elem len idx) := by
  simp [virtqueueFill, enabled, unordered, split]

theorem virtqueueFlush_split (split : vq.vdev.ringPacked = false) (count : UInt32) :
    virtqueueFlush vq count = .ok (virtqueueSplitFlush vq count) := by
  simp [virtqueueFlush, enabled, unordered, split]

theorem virtqueueFill_packed (packed : vq.vdev.ringPacked = true) (elem : VirtQueueElement)
    (len idx : UInt32) :
    virtqueueFill vq elem len idx = virtqueuePackedFill vq elem len idx := by
  simp [virtqueueFill, enabled, unordered, packed]

theorem virtqueueFlush_packed (packed : vq.vdev.ringPacked = true) (count : UInt32) :
    virtqueueFlush vq count = virtqueuePackedFlush vq count := by
  simp [virtqueueFlush, enabled, unordered, packed]

end Layouts

variable {vq after : VirtQueue} {elem : Option VirtQueueElement} {guest : Guest}

theorem virtqueueFill_ordered (enabled : virtioDeviceDisabled vq.vdev = false)
    (ordered : vq.vdev.inOrder = true) (elem : VirtQueueElement) (len idx : UInt32) :
    virtqueueFill vq elem len idx = virtqueueOrderedFill vq elem len := by
  simp [virtqueueFill, enabled, ordered]

theorem virtqueueFlush_ordered (enabled : virtioDeviceDisabled vq.vdev = false)
    (ordered : vq.vdev.inOrder = true) (count : UInt32) :
    virtqueueFlush vq count = virtqueueOrderedFlush vq := by
  simp [virtqueueFlush, enabled, ordered]

theorem virtqueueFill_disabled (disabled : virtioDeviceDisabled vq.vdev = true)
    (elem : VirtQueueElement) (len idx : UInt32) : virtqueueFill vq elem len idx = .ok vq := by
  simp [virtqueueFill, disabled]

theorem virtqueueFlush_disabled (disabled : virtioDeviceDisabled vq.vdev = true) (count : UInt32) :
    virtqueueFlush vq count = .ok { vq with inuse := vq.inuse - count } := by
  simp [virtqueueFlush, disabled]

def virtqueuePush (vq : VirtQueue) (elem : VirtQueueElement) (len : UInt32) :
    Checked VirtQueue :=
  (virtqueueFill vq elem len 0).bind fun vq => virtqueueFlush vq 1

/-! ### Taking elements and giving them back -/

def virtqueuePop (guest : Guest) (vq : VirtQueue) :
    Checked (Option VirtQueueElement × VirtQueue) :=
  if virtioDeviceDisabled vq.vdev then .ok (none, vq)
  else if vq.vdev.ringPacked then virtqueuePackedPop guest vq
  else virtqueueSplitPop guest vq

theorem virtqueuePop_splitPopped (unordered : vq.vdev.inOrder = false)
    (split : vq.vdev.ringPacked = false) (popped : virtqueuePop guest vq = .ok (elem, after)) :
    SplitPopped vq elem after := by
  rw [virtqueuePop, split] at popped
  split at popped
  · cases popped
    exact SplitPopped.empty vq.shadowAvailIdx fun _ => rfl
  · exact virtqueueSplitPop_popped unordered popped

theorem virtqueuePop_packedPopped (unordered : vq.vdev.inOrder = false)
    (packed : vq.vdev.ringPacked = true) (small : vq.vring.num ≤ virtqueueMaxSize)
    (popped : virtqueuePop guest vq = .ok (elem, after)) :
    PackedPopped vq elem after ∧ (elem ≠ none → virtioDeviceDisabled vq.vdev = false) := by
  rw [virtqueuePop, packed] at popped
  split at popped
  · cases popped
    exact ⟨PackedPopped.empty, fun taken => (taken rfl).elim⟩
  next enabled =>
    exact ⟨virtqueuePackedPop_popped unordered small popped, fun _ => by simpa using enabled⟩

def virtqueueDetachElement (vq : VirtQueue) (elem : VirtQueueElement) : VirtQueue :=
  { vq with inuse := vq.inuse - elem.ndescs }

def virtqueueUnpop (vq : VirtQueue) (elem : VirtQueueElement) : VirtQueue :=
  virtqueueDetachElement
    (if vq.vdev.ringPacked then virtqueuePackedRewind vq 1 else virtqueueSplitRewind vq 1) elem

def virtqueueRewind (vq : VirtQueue) (num : UInt32) : Bool × VirtQueue :=
  if vq.inuse < num then (false, vq)
  else
    let vq := { vq with inuse := vq.inuse - num }
    (true, if vq.vdev.ringPacked then virtqueuePackedRewind vq num
      else virtqueueSplitRewind vq num)

theorem virtqueueRewind_vdev (vq : VirtQueue) (num : UInt32) :
    (virtqueueRewind vq num).2.vdev = vq.vdev := by
  grind [virtqueueRewind, virtqueuePackedRewind, virtqueueSplitRewind]

theorem virtqueueUnpop_vdev (vq : VirtQueue) (elem : VirtQueueElement) :
    (virtqueueUnpop vq elem).vdev = vq.vdev := by
  simp only [virtqueueUnpop, virtqueueDetachElement, virtqueuePackedRewind, virtqueueSplitRewind]
  split
  · split <;> rfl
  · rfl

/-! ### Dropping what is available

The source counts the dropped elements; here they are listed by their index. -/

/-- The loop of `virtqueue_split_drop_all`, one guest memory for each turn. -/
def virtqueueSplitDropAll : List Guest → VirtQueue → Checked (List UInt32 × VirtQueue)
  | [], _ => .error .unfinished
  | guest :: rest, vq =>
    let (empty, vq) := virtioQueueSplitEmpty guest vq
    if empty = true ∨ vq.vring.num ≤ vq.inuse.toNat then .ok ([], vq)
    else
      match virtqueueGetHead guest vq vq.lastAvailIdx.toUInt32 with
      | .error error => .ok ([], virtioError vq error)
      | .ok head =>
        let vq := { vq with inuse := vq.inuse + 1, lastAvailIdx := vq.lastAvailIdx + 1 }
        (virtqueuePush vq { index := head } 0).bind fun vq =>
          (virtqueueSplitDropAll rest vq).bind fun (dropped, vq) => .ok (head :: dropped, vq)

/-- The inner loop of `virtqueue_packed_drop_all`: the length of a chain, which nothing
bounds. -/
def packedChainLength (guest : Guest) (num mapped : Nat) :
    Nat → Nat → Nat → VRingPackedDesc → UInt32 → Checked UInt32
  | 0, _, _, _, _ => .error .unfinished
  | fuel + 1, reads, next, desc, ndescs =>
    (virtqueuePackedReadNextDesc num guest.packedDesc mapped reads desc num next false).bind
      fun more =>
        match more with
        | none => .ok ndescs
        | some (desc, next) =>
          packedChainLength guest num mapped fuel (reads + 1) next desc (ndescs + 1)

/-- The outer loop of `virtqueue_packed_drop_all`. Unlike the loop for a split queue it
pushes an element that it has not counted in `inuse`. -/
def packedDropLoop (fuel mapped : Nat) :
    List Guest → VirtQueue → Checked (List UInt32 × VirtQueue)
  | [], _ => .error .unfinished
  | guest :: rest, vq =>
    if vq.vring.num ≤ vq.inuse.toNat then .ok ([], vq)
    else
      (readDescCached mapped guest.packedDesc 0 vq.lastAvailIdx.toNat).bind fun desc =>
        if !isDescAvail desc.flags vq.lastAvailWrapCounter then .ok ([], vq)
        else
          (packedChainLength guest vq.vring.num mapped fuel 1 vq.lastAvailIdx.toNat desc 1).bind
            fun ndescs =>
              let elem : VirtQueueElement := { index := desc.id.toUInt32, ndescs }
              (virtqueuePush vq elem 0).bind fun vq =>
                (packedDropLoop fuel mapped rest (packedAdvanceAvail vq ndescs)).bind
                  fun (dropped, vq) => .ok (elem.index :: dropped, vq)

def virtqueuePackedDropAll (fuel : Nat) (guests : List Guest) (vq : VirtQueue) :
    Checked (List UInt32 × VirtQueue) :=
  match vq.vring.caches with
  | none => .ok ([], vq)
  | some mapped => packedDropLoop fuel mapped guests vq

def virtqueueDropAll (fuel : Nat) (guests : List Guest) (vq : VirtQueue) :
    Checked (List UInt32 × VirtQueue) :=
  if virtioDeviceDisabled vq.vdev then .ok ([], vq)
  else if vq.vdev.ringPacked then virtqueuePackedDropAll fuel guests vq
  else virtqueueSplitDropAll guests vq

theorem virtqueueDropAll_nothing {fuel : Nat} {guests : List Guest}
    (packed : vq.vdev.ringPacked = true)
    (dropping : virtqueueDropAll fuel guests vq = .ok ([], after)) : after = vq := by
  simp only [virtqueueDropAll, packed, if_true, virtqueuePackedDropAll] at dropping
  split at dropping
  · cases dropping
    rfl
  · split at dropping
    · cases dropping
      rfl
    · cases guests with
      | nil => cases dropping
      | cons guest rest =>
        simp only [packedDropLoop] at dropping
        split at dropping
        · cases dropping
          rfl
        · obtain ⟨desc, -, dropping⟩ := bind_eq_ok.mp dropping
          split at dropping
          · cases dropping
            rfl
          · -- A turn that goes on lists what it dropped.
            obtain ⟨ndescs, -, pushing⟩ := bind_eq_ok.mp dropping
            obtain ⟨middle, -, others⟩ := bind_eq_ok.mp pushing
            obtain ⟨result, -, listed⟩ := bind_eq_ok.mp others
            cases listed

end QemuGzvm.Virtio
