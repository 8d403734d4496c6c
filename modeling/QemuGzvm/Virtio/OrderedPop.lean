import QemuGzvm.Virtio.OrderedFill

/-!
Contract: popping from a virtqueue with `VIRTIO_F_IN_ORDER`.

Owns:
- `OrderedPopped`, what a pop can do to such a queue;
- that a pop records its element behind the elements in flight.
-/

namespace QemuGzvm.Virtio

open QemuGzvm.Library

/-- The record of an element in an entry that was `old`. -/
def recordEntry (old elem : VirtQueueElement) : VirtQueueElement :=
  { old with index := elem.index, len := elem.len, ndescs := elem.ndescs }

def orderedTake (vq : VirtQueue) (old elem : VirtQueueElement) (shadow : UInt16) : VirtQueue :=
  let usedElems := vq.usedElems.set (recordIndex vq) (recordEntry old elem)
  if vq.vdev.ringPacked then packedTake { vq with usedElems } elem.ndescs
  else
    { vq with
      usedElems
      shadowAvailIdx := shadow
      lastAvailIdx := vq.lastAvailIdx + 1
      inuse := vq.inuse + 1 }

theorem orderedTake_frame (vq : VirtQueue) (old : VirtQueueElement) {elem : VirtQueueElement}
    (shadow : UInt16) (single : vq.vdev.ringPacked = false → elem.ndescs = 1) :
    ∃ idx wrap newShadow shadowWrap, orderedTake vq old elem shadow =
      { vq with
        usedElems := vq.usedElems.set (recordIndex vq) (recordEntry old elem)
        lastAvailIdx := idx
        lastAvailWrapCounter := wrap
        shadowAvailIdx := newShadow
        shadowAvailWrapCounter := shadowWrap
        inuse := vq.inuse + elem.ndescs } := by
  simp only [orderedTake]
  split
  · obtain ⟨idx, wrap, framed⟩ := packedTake_frame
      { vq with usedElems := vq.usedElems.set (recordIndex vq) (recordEntry old elem) }
      elem.ndescs
    exact ⟨idx, wrap, idx, wrap, framed⟩
  next split =>
    rw [single (Bool.eq_false_iff.mpr split)]
    exact ⟨_, _, shadow, _, rfl⟩

variable {vq after : VirtQueue} {guest : Guest} {elem : Option VirtQueueElement}

/-- A pop moves `last_avail_idx` of a packed queue by the descriptors of its element. -/
theorem orderedTake_availCounter {taken : Nat} (old elem : VirtQueueElement) (shadow : UInt16)
    (packed : vq.vdev.ringPacked = true) (numPos : 0 < vq.vring.num)
    (numSmall : vq.vring.num ≤ virtqueueMaxSize)
    (counter : availCounter vq = LapCounter.ofNumber vq.vring.num taken)
    (short : elem.ndescs.toNat ≤ vq.vring.num) :
    availCounter (orderedTake vq old elem shadow) =
      LapCounter.ofNumber vq.vring.num (taken + elem.ndescs.toNat) := by
  have position : vq.lastAvailIdx.toNat = taken % vq.vring.num := congrArg LapCounter.index counter
  have inside : vq.lastAvailIdx.toNat < vq.vring.num := by
    rw [position]
    exact Nat.mod_lt _ numPos
  rw [orderedTake, packed, if_pos rfl, ← LapCounter.ofNumber_advance numPos _ short, ← counter]
  exact availCounter_advance numSmall inside short

/-- What a pop can do to a queue with `VIRTIO_F_IN_ORDER`: find it empty, mark the device
broken, or take one element and record it. -/
inductive OrderedPopped (vq : VirtQueue) : Option VirtQueueElement → VirtQueue → Prop
  | empty (shadow : UInt16) : OrderedPopped vq none { vq with shadowAvailIdx := shadow }
  | broken {after : VirtQueue} (broken : after.vdev.broken = true) : OrderedPopped vq none after
  | element (shadow : UInt16) {old elem : VirtQueueElement}
      (enabled : virtioDeviceDisabled vq.vdev = false) (cached : vq.vring.caches ≠ none)
      (area : vq.vdev.ringPacked = true → vq.vring.desc ≠ 0)
      (room : vq.inuse.toNat < vq.vring.num) (positive : 0 < elem.ndescs.toNat)
      (bounded : elem.ndescs.toNat ≤ vq.vring.num)
      (single : vq.vdev.ringPacked = false → elem.ndescs = 1)
      (present : vq.usedElems[recordIndex vq]? = some old) :
      OrderedPopped vq (some elem) (orderedTake vq old elem shadow)

theorem recordInOrder_ordered {seen recorded : VirtQueue} {idx : Nat} {elem : VirtQueueElement}
    (recording : recordInOrder seen idx elem = .ok recorded) (ordered : seen.vdev.inOrder = true) :
    ∃ old, seen.usedElems[idx]? = some old ∧
      recorded = { seen with usedElems := seen.usedElems.set idx (recordEntry old elem) } := by
  rw [recordInOrder, if_pos ordered] at recording
  obtain ⟨old, present, result⟩ := bind_eq_ok.mp recording
  cases result
  exact ⟨old, readAt_eq_ok.mp present, rfl⟩

theorem virtqueueSplitPop_ordered (ordered : vq.vdev.inOrder = true)
    (split : vq.vdev.ringPacked = false)
    (popped : virtqueueSplitPop guest vq = .ok (elem, after)) : OrderedPopped vq elem after := by
  rcases virtqueueSplitPop_cases popped with
    ⟨shadow, rfl, rfl, -⟩ | ⟨rfl, broken⟩ | ⟨shadow, taken, recorded, rfl, rfl, takes⟩
  · exact .empty shadow
  · exact .broken broken
  · obtain ⟨old, present, rfl⟩ := recordInOrder_ordered takes.recorded ordered
    have single : taken.ndescs = 1 := congrArg VirtQueueElement.ndescs takes.plain
    have outcome : OrderedPopped vq taken (orderedTake vq old taken shadow) :=
      .element shadow takes.enabled (splitPopBuffers_caches takes.buffers)
        (fun packed => by rw [split] at packed; cases packed) takes.room
        (by rw [single]; exact Nat.one_pos)
        (by rw [single]; exact Nat.lt_of_le_of_lt (Nat.zero_le _) takes.room) (fun _ => single)
        (by rw [recordIndex, split]; exact present)
    rw [orderedTake, split, recordIndex, split] at outcome
    exact outcome

theorem virtqueuePackedPop_ordered (enabled : virtioDeviceDisabled vq.vdev = false)
    (ordered : vq.vdev.inOrder = true) (packed : vq.vdev.ringPacked = true)
    (small : vq.vring.num ≤ virtqueueMaxSize)
    (popped : virtqueuePackedPop guest vq = .ok (elem, after)) : OrderedPopped vq elem after := by
  rcases virtqueuePackedPop_cases popped with
    ⟨rfl, rfl | broken⟩ | ⟨taken, recorded, rfl, rfl, takes⟩
  · exact .empty after.shadowAvailIdx
  · exact .broken broken
  · obtain ⟨old, present, rfl⟩ := recordInOrder_ordered takes.recorded ordered
    have length := packedPopElement_ndescs (Nat.zero_lt_of_lt takes.room) small takes.element
    have outcome : OrderedPopped vq taken (orderedTake vq old taken 0) :=
      .element 0 enabled (packedPopElement_caches takes.element)
        (fun _ => virtioQueuePackedEmptyRcu_desc takes.tested Bool.false_ne_true) takes.room
        length.1 length.2 (fun split => by rw [packed] at split; cases split)
        (by rw [recordIndex, packed]; exact present)
    rw [orderedTake, packed, recordIndex, packed] at outcome
    exact outcome

theorem virtqueuePop_ordered (ordered : vq.vdev.inOrder = true)
    (small : vq.vring.num ≤ virtqueueMaxSize) (popped : virtqueuePop guest vq = .ok (elem, after)) :
    OrderedPopped vq elem after := by
  unfold virtqueuePop at popped
  split at popped
  · cases popped
    exact OrderedPopped.empty vq.shadowAvailIdx
  next enabled =>
    grind [virtqueuePackedPop_ordered, virtqueueSplitPop_ordered]

/-- A popped element in the entry behind the elements in flight. -/
theorem inFlight_record {num start : Nat} {usedElems : List VirtQueueElement}
    {window : List OrderedElem} {old elem : VirtQueueElement}
    (inFlight : InFlight num usedElems start window) (positive : 0 < elem.ndescs.toNat)
    (room : descsOf window + elem.ndescs.toNat ≤ num) (covers : num ≤ usedElems.length)
    (present : usedElems[(start + descsOf window) % num]? = some old) :
    InFlight num (usedElems.set ((start + descsOf window) % num) (recordEntry old elem)) start
      (window ++ [⟨elem, none⟩]) := by
  have unfilled := inFlight.other _ _ present fun _ inside =>
    (inFlight.end_ne (Nat.lt_of_lt_of_le (Nat.lt_add_of_pos_right positive) room) inside).symm
  exact inFlight.push positive room covers ⟨rfl, rfl, unfilled, nofun⟩

end QemuGzvm.Virtio
