import QemuGzvm.Virtio.Queue

/-!
Contract: the split layout of `hw/virtio/virtio.c`.

Owns:
- the emptiness test, `virtqueue_get_head` and the walk along a chain of descriptors;
- `virtqueue_split_pop`, `virtqueue_split_fill`, `virtqueue_split_flush` and
  `virtqueue_split_rewind`;
- what a pop can do to a queue without `VIRTIO_F_IN_ORDER`.
-/

namespace QemuGzvm.Virtio

open QemuGzvm.Library

/-! ### The available ring -/

/-- Reads `avail->idx` and remembers it. -/
def vringAvailIdx (guest : Guest) (vq : VirtQueue) : UInt16 × VirtQueue :=
  match vq.vring.caches with
  | none => (0, vq)
  | some _ => (guest.availIdx, { vq with shadowAvailIdx := guest.availIdx })

def vringAvailRing (guest : Guest) (vq : VirtQueue) (i : Nat) : UInt16 :=
  match vq.vring.caches with
  | none => 0
  | some _ => guest.availRing i

def virtioQueueEmptyRcu (guest : Guest) (vq : VirtQueue) : Bool × VirtQueue :=
  if virtioDeviceDisabled vq.vdev then (true, vq)
  else if vq.vring.avail = 0 then (true, vq)
  else if vq.shadowAvailIdx ≠ vq.lastAvailIdx then (false, vq)
  else
    let (availIdx, vq) := vringAvailIdx guest vq
    (availIdx == vq.lastAvailIdx, vq)

/-- The same test under the RCU read lock. -/
def virtioQueueSplitEmpty (guest : Guest) (vq : VirtQueue) : Bool × VirtQueue :=
  virtioQueueEmptyRcu guest vq

def virtqueueGetHead (guest : Guest) (vq : VirtQueue) (idx : UInt32) :
    Except VirtioError UInt32 :=
  let head := (vringAvailRing guest vq (idx.toNat % vq.vring.num)).toUInt32
  if vq.vring.num ≤ head.toNat then .error (.indexNotAvailable head.toNat) else .ok head

/-! ### Chains -/

/-- `VIRTQUEUE_READ_DESC_DONE` is `none`, `VIRTQUEUE_READ_DESC_MORE` the descriptor
read, `VIRTQUEUE_READ_DESC_ERROR` an error. `table` is the descriptor table or an
indirect one, `mapped` the length of its cache. -/
def virtqueueSplitReadNextDesc (table : Nat → Nat → VRingDesc) (mapped reads : Nat)
    (desc : VRingDesc) (max : Nat) : Except Stop (Option VRingDesc) :=
  if !descNext desc.flags then .ok none
  else if max ≤ desc.next.toNat then .error (.report (.descNext desc.next.toNat))
  else ((readDescCached mapped table reads desc.next.toNat).mapError .fault).map some

/-- The loop over a chain; `room` is `max - elem_entries`. -/
def splitPopChain (guest : Guest) (table : Nat → Nat → VRingDesc) (mapped max : Nat) :
    Nat → Nat → VRingDesc → SgLists → Except Stop SgLists
  | room, reads, desc, sgs =>
    (mapChainDesc guest desc.flags desc.addr desc.len sgs).bind fun sgs =>
      match room with
      | 0 => .error (.report .loopedDescriptor)
      | room + 1 =>
        (virtqueueSplitReadNextDesc table mapped reads desc max).bind fun more =>
          match more with
          | none => .ok sgs
          | some next => splitPopChain guest table mapped max room (reads + 1) next sgs

def splitPopBuffers (guest : Guest) (vq : VirtQueue) (head : UInt32) : Except Stop SgLists :=
  (checkDescCache vq.vring).bind fun mapped =>
    ((readDescCached mapped guest.desc 0 head.toNat).mapError .fault).bind fun desc =>
      if descIndirect desc.flags then
        if desc.len = 0 ∨ desc.len.toNat % sizeofDesc ≠ 0 then
          .error (.report .invalidIndirectSize)
        else
          (mapIndirect guest desc.addr desc.len).bind fun (mapped, max) =>
            ((readDescCached mapped guest.indirectDesc 0 0).mapError .fault).bind fun first =>
              splitPopChain guest guest.indirectDesc mapped max max 1 first {}
      else splitPopChain guest guest.desc mapped vq.vring.num vq.vring.num 1 desc {}

/-! ### Operations -/

/-- The record an in-order queue keeps of the element at position `idx`. -/
def recordInOrder (vq : VirtQueue) (idx : Nat) (elem : VirtQueueElement) : Checked VirtQueue :=
  if vq.vdev.inOrder then
    (readAt vq.usedElems idx).bind fun old =>
      let entry := { old with index := elem.index, len := elem.len, ndescs := elem.ndescs }
      .ok { vq with usedElems := vq.usedElems.set idx entry }
  else .ok vq

def virtqueueSplitPop (guest : Guest) (vq : VirtQueue) :
    Checked (Option VirtQueueElement × VirtQueue) :=
  let (empty, vq) := virtioQueueEmptyRcu guest vq
  if empty then .ok (none, vq)
  else if vq.vring.num ≤ vq.inuse.toNat then .ok (none, virtioError vq .sizeExceeded)
  else
    let taken := { vq with lastAvailIdx := vq.lastAvailIdx + 1 }
    match virtqueueGetHead guest vq vq.lastAvailIdx.toUInt32 with
    | .error error => .ok (none, virtioError taken error)
    | .ok head =>
      match splitPopBuffers guest taken head with
      | .error (.fault fault) => .error fault
      | .error (.report error) => .ok (none, virtioError taken error)
      | .ok sgs =>
        let elem : VirtQueueElement :=
          { index := head, ndescs := 1, outSg := sgs.outSg, inSg := sgs.inSg }
        (recordInOrder taken ((taken.lastAvailIdx.toUInt32 - 1).toNat % taken.vring.num) elem).bind
          fun vq => .ok (some elem, { vq with inuse := vq.inuse + 1 })

def virtqueueSplitRewind (vq : VirtQueue) (num : UInt32) : VirtQueue :=
  { vq with lastAvailIdx := vq.lastAvailIdx - num.toUInt16 }

def vringUsedWrite (vq : VirtQueue) (uelem : VRingUsedElem) (i : Nat) : VirtQueue :=
  match vq.vring.caches with
  | none => vq
  | some _ => { vq with usedRing := vq.usedRing.set i (some uelem) }

variable {vq after : VirtQueue} {guest : Guest} {head : UInt32}

theorem vringUsedWrite_cached (cached : vq.vring.caches ≠ none) (uelem : VRingUsedElem) (i : Nat) :
    vringUsedWrite vq uelem i = { vq with usedRing := vq.usedRing.set i (some uelem) } := by
  obtain ⟨length, present⟩ := Option.ne_none_iff_exists'.mp cached
  simp [vringUsedWrite, present]

def virtqueueSplitFill (vq : VirtQueue) (elem : VirtQueueElement) (len idx : UInt32) :
    VirtQueue :=
  if vq.vring.used = 0 then vq
  else
    vringUsedWrite vq { id := elem.index, len }
      ((idx + vq.usedIdx.toUInt32).toNat % vq.vring.num)

def virtqueueSplitFlush (vq : VirtQueue) (count : UInt32) : VirtQueue :=
  if vq.vring.used = 0 then vq
  else
    let old := vq.usedIdx
    let new := old + count.toUInt16
    { vq with
      usedIdx := new
      inuse := vq.inuse - count
      signalledUsedValid :=
        vq.signalledUsedValid &&
          !decide ((new - vq.signalledUsed).toInt16.toInt < (new - old).toNat) }

/-! ### What a pop does -/

/-- The emptiness test changes only what is remembered of `avail->idx`. -/
theorem virtioQueueEmptyRcu_cases (guest : Guest) (vq : VirtQueue) :
    virtioQueueEmptyRcu guest vq = (true, vq) ∨
    virtioDeviceDisabled vq.vdev = false ∧ ∃ empty shadow,
      virtioQueueEmptyRcu guest vq = (empty, { vq with shadowAvailIdx := shadow }) ∧
      (vq.vring.caches = none → shadow = vq.shadowAvailIdx ∧
        (vq.shadowAvailIdx = vq.lastAvailIdx → vq.lastAvailIdx = 0 → empty = true)) := by
  unfold virtioQueueEmptyRcu
  split
  · exact Or.inl rfl
  next enabled =>
    replace enabled : virtioDeviceDisabled vq.vdev = false := by simpa using enabled
    split
    · exact Or.inl rfl
    · refine Or.inr ⟨enabled, ?_⟩
      split
      next pending =>
        exact ⟨false, vq.shadowAvailIdx, rfl, fun _ => ⟨rfl, fun same => absurd same pending⟩⟩
      · cases caches : vq.vring.caches with
        | none =>
          refine ⟨0 == vq.lastAvailIdx, vq.shadowAvailIdx, by simp [vringAvailIdx, caches],
            fun _ => ⟨rfl, fun _ zero => ?_⟩⟩
          rw [zero]
          rfl
        | some len =>
          exact ⟨guest.availIdx == vq.lastAvailIdx, guest.availIdx,
            by simp [vringAvailIdx, caches], nofun⟩

theorem virtqueueGetHead_lt {idx : UInt32} (taken : virtqueueGetHead guest vq idx = .ok head) :
    head.toNat < vq.vring.num := by
  grind [virtqueueGetHead]

theorem checkDescCache_ok {vring : VRing} {mapped : Nat}
    (checked : checkDescCache vring = .ok mapped) :
    vring.caches = some mapped ∧ vring.num * sizeofDesc ≤ mapped := by
  grind [checkDescCache]

theorem splitPopBuffers_caches {sgs : SgLists} (collected : splitPopBuffers guest vq head = .ok sgs) :
    vq.vring.caches ≠ none := by
  unfold splitPopBuffers at collected
  cases checked : checkDescCache vq.vring with
  | error stop =>
    rw [checked] at collected
    cases collected
  | ok mapped =>
    rw [(checkDescCache_ok checked).1]
    exact Option.some_ne_none mapped

/-- A pop that takes `elem`, up to its record. -/
structure SplitTakes (guest : Guest) (vq : VirtQueue) (shadow : UInt16) (elem : VirtQueueElement)
    (recorded : VirtQueue) : Prop where
  enabled : virtioDeviceDisabled vq.vdev = false
  tested : virtioQueueEmptyRcu guest vq = (false, { vq with shadowAvailIdx := shadow })
  room : vq.inuse.toNat < vq.vring.num
  head : virtqueueGetHead guest vq vq.lastAvailIdx.toUInt32 = .ok elem.index
  buffers : splitPopBuffers guest vq elem.index = .ok ⟨elem.outSg, elem.inSg⟩
  plain : elem = { index := elem.index, ndescs := 1, outSg := elem.outSg, inSg := elem.inSg }
  recorded : recordInOrder
    { vq with shadowAvailIdx := shadow, lastAvailIdx := vq.lastAvailIdx + 1 }
    (((vq.lastAvailIdx + 1).toUInt32 - 1).toNat % vq.vring.num) elem = .ok recorded

theorem SplitTakes.pop {shadow : UInt16} {elem : VirtQueueElement} {recorded : VirtQueue}
    (takes : SplitTakes guest vq shadow elem recorded) :
    virtqueueSplitPop guest vq =
      .ok (some elem, { recorded with inuse := recorded.inuse + 1 }) := by
  have head : virtqueueGetHead guest { vq with shadowAvailIdx := shadow }
      vq.lastAvailIdx.toUInt32 = .ok elem.index := takes.head
  have buffers : splitPopBuffers guest
      { vq with shadowAvailIdx := shadow, lastAvailIdx := vq.lastAvailIdx + 1 } elem.index =
        .ok ⟨elem.outSg, elem.inSg⟩ := takes.buffers
  simp only [virtqueueSplitPop, takes.tested, Bool.false_eq_true, if_false,
    if_neg (Nat.not_le.mpr takes.room), head, buffers]
  rw [← takes.plain, takes.recorded]
  rfl

/-- What a pop can do: find the queue empty, mark the device broken, or take one element. -/
theorem virtqueueSplitPop_cases {elem : Option VirtQueueElement}
    (popped : virtqueueSplitPop guest vq = .ok (elem, after)) :
    (∃ shadow, elem = none ∧ after = { vq with shadowAvailIdx := shadow } ∧
      (virtioDeviceDisabled vq.vdev = true ∨ vq.vring.caches = none →
        shadow = vq.shadowAvailIdx)) ∨
    (elem = none ∧ after.vdev.broken = true) ∨
    ∃ shadow taken recorded, elem = some taken ∧
      after = { recorded with inuse := recorded.inuse + 1 } ∧
      SplitTakes guest vq shadow taken recorded := by
  unfold virtqueueSplitPop at popped
  rcases virtioQueueEmptyRcu_cases guest vq with empty | ⟨enabled, empty, shadow, tested, kept⟩
  · rw [empty] at popped
    cases popped
    exact Or.inl ⟨vq.shadowAvailIdx, rfl, rfl, fun _ => rfl⟩
  · rw [tested] at popped
    dsimp only at popped
    split at popped
    · cases popped
      refine Or.inl ⟨shadow, rfl, rfl, fun idle => ?_⟩
      rcases idle with disabled | missing
      · rw [enabled] at disabled
        cases disabled
      · exact (kept missing).1
    next available =>
      rw [Bool.not_eq_true] at available
      rw [available] at tested
      refine Or.inr ?_
      split at popped
      · cases popped
        exact Or.inl ⟨rfl, rfl⟩
      next room =>
        split at popped
        · cases popped
          exact Or.inl ⟨rfl, rfl⟩
        next head taken =>
          split at popped
          · cases popped
          · cases popped
            exact Or.inl ⟨rfl, rfl⟩
          next sgs collected =>
            obtain ⟨recorded, recording, result⟩ := bind_eq_ok.mp popped
            cases result
            exact Or.inr ⟨shadow, _, recorded, rfl, rfl, enabled, tested, Nat.lt_of_not_le room,
              taken, collected, rfl, recording⟩

/-- What a pop can do to a queue without `VIRTIO_F_IN_ORDER`: find it empty, mark the
device broken, or take one element. -/
inductive SplitPopped (vq : VirtQueue) : Option VirtQueueElement → VirtQueue → Prop
  | empty (shadow : UInt16)
      (kept : virtioDeviceDisabled vq.vdev = true ∨ vq.vring.caches = none →
        shadow = vq.shadowAvailIdx) :
      SplitPopped vq none { vq with shadowAvailIdx := shadow }
  | broken {after : VirtQueue} (broken : after.vdev.broken = true) : SplitPopped vq none after
  | element (shadow : UInt16) {elem : VirtQueueElement}
      (enabled : virtioDeviceDisabled vq.vdev = false) (cached : vq.vring.caches ≠ none)
      (room : vq.inuse.toNat < vq.vring.num) (inside : elem.index.toNat < vq.vring.num)
      (single : elem.ndescs = 1) :
      SplitPopped vq (some elem)
        { vq with
          shadowAvailIdx := shadow
          lastAvailIdx := vq.lastAvailIdx + 1
          inuse := vq.inuse + 1 }

theorem virtqueueSplitPop_popped {elem : Option VirtQueueElement}
    (unordered : vq.vdev.inOrder = false)
    (popped : virtqueueSplitPop guest vq = .ok (elem, after)) : SplitPopped vq elem after := by
  rcases virtqueueSplitPop_cases popped with
    ⟨shadow, rfl, rfl, kept⟩ | ⟨rfl, broken⟩ | ⟨shadow, taken, recorded, rfl, rfl, takes⟩
  · exact .empty shadow kept
  · exact .broken broken
  · have recording := takes.recorded
    simp only [recordInOrder, unordered, Bool.false_eq_true, if_false] at recording
    cases recording
    exact .element shadow takes.enabled (splitPopBuffers_caches takes.buffers) takes.room
      (virtqueueGetHead_lt takes.head) (congrArg VirtQueueElement.ndescs takes.plain)

end QemuGzvm.Virtio
