import QemuGzvm.Virtio.Operations

/-!
Contract: `virtqueue_unpop` after `virtqueue_pop`.

Owns:
- what `virtqueue_unpop` restores, for both layouts, with and without `VIRTIO_F_IN_ORDER`;
- that a chain of several descriptors of a packed queue is not given back: the pop advances
  `last_avail_idx` by all of them, `virtqueue_unpop` goes back by one.
-/

namespace QemuGzvm.Virtio

open QemuGzvm.Library

variable {guest : Guest} {vq after recorded : VirtQueue} {elem : VirtQueueElement}

/-- The fields that a pop moves have the values that they had. -/
structure Restores (vq restored : VirtQueue) : Prop where
  lastAvailIdx : restored.lastAvailIdx = vq.lastAvailIdx
  lastAvailWrapCounter : restored.lastAvailWrapCounter = vq.lastAvailWrapCounter
  usedIdx : restored.usedIdx = vq.usedIdx
  inuse : restored.inuse = vq.inuse

/-- A packed queue has its index inside the ring, and the chain there is one descriptor. -/
def SingleChain (guest : Guest) (vq : VirtQueue) : Prop :=
  vq.vdev.ringPacked = true → vq.lastAvailIdx.toNat < vq.vring.num ∧
    (descIndirect (guest.packedDesc 0 vq.lastAvailIdx.toNat).flags = true ∨
      descNext (guest.packedDesc 0 vq.lastAvailIdx.toNat).flags = false)

/-- The record of an element can be made again. -/
theorem recordInOrder_again {idx : Nat} (recording : recordInOrder vq idx elem = .ok recorded) :
    ∃ usedElems, recorded = { vq with usedElems } ∧
      ∀ other : VirtQueue, other.vdev = vq.vdev → other.usedElems = usedElems →
        recordInOrder other idx elem = .ok other := by
  unfold recordInOrder at recording
  split at recording
  next ordered =>
    obtain ⟨old, present, result⟩ := bind_eq_ok.mp recording
    cases result
    refine ⟨_, rfl, fun other sameDevice same => ?_⟩
    have inside := (List.getElem?_eq_some_iff.mp (readAt_eq_ok.mp present)).1
    rw [recordInOrder, sameDevice, if_pos ordered, same,
      readAt_of_getElem? (List.getElem?_set_self inside), bind_ok]
    dsimp only
    rw [List.set_set, ← same, ← sameDevice]
  next unordered =>
    cases recording
    refine ⟨_, rfl, fun other sameDevice _ => ?_⟩
    rw [recordInOrder, sameDevice, if_neg unordered]

/-! ### Split queues -/

theorem virtioQueueEmptyRcu_again {shadow : UInt16}
    (tested : virtioQueueEmptyRcu guest vq = (false, { vq with shadowAvailIdx := shadow }))
    (usedElems : List VirtQueueElement) :
    virtioQueueEmptyRcu guest { vq with shadowAvailIdx := shadow, usedElems } =
      (false, { vq with shadowAvailIdx := shadow, usedElems }) := by
  unfold virtioQueueEmptyRcu vringAvailIdx at tested ⊢
  grind

theorem SplitTakes.again {shadow : UInt16} (takes : SplitTakes guest vq shadow elem recorded) :
    ∃ usedElems, recorded = { vq with
        shadowAvailIdx := shadow, lastAvailIdx := vq.lastAvailIdx + 1, usedElems } ∧
      SplitTakes guest { vq with shadowAvailIdx := shadow, usedElems } shadow elem recorded := by
  obtain ⟨usedElems, rfl, again⟩ := recordInOrder_again takes.recorded
  exact ⟨usedElems, rfl, takes.enabled, virtioQueueEmptyRcu_again takes.tested usedElems, takes.room,
    takes.head, takes.buffers, takes.plain, again _ rfl rfl⟩

/-! ### Packed queues -/

theorem mapError_eq_ok {α : Type} {computation : Checked α} {value : α}
    (ok : computation.mapError Stop.fault = .ok value) : computation = .ok value := by
  cases computation with
  | error fault => cases ok
  | ok found =>
    cases ok
    rfl

/-- In the ring, a chain goes on where a descriptor says so. -/
theorem packedReadNext_isSome {table : Nat → Nat → VRingPackedDesc} {num mapped reads max next : Nat}
    {desc : VRingPackedDesc} {more : Option (VRingPackedDesc × Nat)}
    (read : virtqueuePackedReadNextDesc num table mapped reads desc max next false = .ok more) :
    more.isSome = descNext desc.flags := by
  unfold virtqueuePackedReadNextDesc at read
  split at read
  next ends =>
    cases read
    simpa using ends.symm
  next goesOn =>
    have following : descNext desc.flags = true := by simpa using goesOn
    rw [following]
    split at read
    all_goals
      obtain ⟨found, -, rfl⟩ := map_eq_ok.mp read
      rfl

theorem packedPopElement_single (room : vq.inuse.toNat < vq.vring.num)
    (small : vq.vring.num ≤ virtqueueMaxSize) (element : packedPopElement guest vq = .ok elem) :
    elem.ndescs = 1 ↔
      descIndirect (guest.packedDesc 0 vq.lastAvailIdx.toNat).flags = true ∨
        descNext (guest.packedDesc 0 vq.lastAvailIdx.toNat).flags = false := by
  unfold virtqueueMaxSize at small
  obtain ⟨mapped, -, element⟩ := stop_bind_eq_ok.mp element
  obtain ⟨desc, isDesc, element⟩ := stop_bind_eq_ok.mp element
  have head : guest.packedDesc 0 vq.lastAvailIdx.toNat = desc := by
    have read := mapError_eq_ok isDesc
    rw [readDescCached] at read
    split at read
    · cases read
    · exact Except.ok.inj read
  rw [head]
  split at element
  next indirect =>
    split at element
    · cases element
    · obtain ⟨cache, -, element⟩ := stop_bind_eq_ok.mp element
      obtain ⟨first, -, element⟩ := stop_bind_eq_ok.mp element
      obtain ⟨result, -, rfl⟩ := map_eq_ok.mp element
      simp [indirect]
  next direct =>
    obtain ⟨⟨sgs, last, entries⟩, walked, rfl⟩ := map_eq_ok.mp element
    have bounds := packedPopChain_entries walked
    have isOne : UInt32.ofNat entries = 1 ↔ entries = 1 := by
      rw [← UInt32.toNat_inj, UInt32.toNat_ofNat', show (1 : UInt32).toNat = 1 from rfl]
      omega
    obtain ⟨rest, isRest⟩ := Nat.exists_eq_add_one_of_ne_zero (Nat.ne_zero_of_lt room)
    rw [isOne, or_iff_right direct]
    rw [isRest, packedPopChain] at walked
    obtain ⟨mappedSgs, -, walked⟩ := stop_bind_eq_ok.mp walked
    obtain ⟨following, isFollowing, walked⟩ := stop_bind_eq_ok.mp walked
    rw [← packedReadNext_isSome (mapError_eq_ok isFollowing)]
    cases following with
    | none =>
      cases walked
      simp
    | some following =>
      have more := (packedPopChain_entries walked).1
      simp
      omega

theorem packedRewind_advance_iff (vq : VirtQueue) {ndescs : UInt32}
    (small : vq.vring.num ≤ virtqueueMaxSize) (positive : 0 < ndescs.toNat)
    (short : ndescs.toNat ≤ vq.vring.num) :
    (virtqueuePackedRewind (packedAdvanceAvail vq ndescs) 1).lastAvailIdx = vq.lastAvailIdx ∧
      (virtqueuePackedRewind (packedAdvanceAvail vq ndescs) 1).lastAvailWrapCounter =
        vq.lastAvailWrapCounter ↔
    vq.lastAvailIdx.toNat < vq.vring.num ∧ ndescs = 1 := by
  unfold virtqueueMaxSize at small
  have isOne : ndescs = 1 ↔ ndescs.toNat = 1 := by
    rw [← UInt32.toNat_inj]
    rfl
  have sum : (vq.lastAvailIdx + ndescs.toUInt16).toNat =
      (vq.lastAvailIdx.toNat + ndescs.toNat) % 2 ^ 16 := by
    rw [UInt16.toNat_add, UInt32.toNat_toUInt16, Nat.add_mod_mod]
  rw [isOne, packedAdvanceAvail]
  -- the bit is right only where both cross the end of the ring, or neither does
  split
  next wraps =>
    have moved : (vq.lastAvailIdx + ndescs.toUInt16 - UInt16.ofNat vq.vring.num).toNat =
        (vq.lastAvailIdx.toNat + ndescs.toNat) % 2 ^ 16 - vq.vring.num := by
      rw [UInt16.toNat_sub, sum, UInt16.toNat_ofNat']
      omega
    rw [virtqueuePackedRewind]
    split
    next atStart =>
      simp only [moved, UInt32.toNat_one] at atStart
      have back : (UInt32.ofNat vq.vring.num + (vq.lastAvailIdx + ndescs.toUInt16 -
          UInt16.ofNat vq.vring.num).toUInt32 - 1).toUInt16.toNat = vq.vring.num - 1 := by
        rw [UInt32.toNat_toUInt16, UInt32.toNat_sub, UInt32.toNat_add, UInt32.toNat_ofNat',
          UInt16.toNat_toUInt32, moved, UInt32.toNat_one]
        omega
      rw [← UInt16.toNat_inj, back]
      simp only [Bool.not_not, and_true]
      omega
    · simp [moved] at *
      omega
  next stays =>
    rw [virtqueuePackedRewind]
    split
    · simp at *
      omega
    · simp [← UInt16.toNat_inj, UInt16.toNat_sub] at *
      omega

theorem virtqueueUnpop_packed (vq : VirtQueue) (elem : VirtQueueElement)
    (packed : vq.vdev.ringPacked = true) : ∃ shadow shadowWrap, virtqueueUnpop (packedTake vq elem.ndescs) elem =
      { vq with
        lastAvailIdx := (virtqueuePackedRewind (packedAdvanceAvail vq elem.ndescs) 1).lastAvailIdx
        lastAvailWrapCounter :=
          (virtqueuePackedRewind (packedAdvanceAvail vq elem.ndescs) 1).lastAvailWrapCounter
        shadowAvailIdx := shadow
        shadowAvailWrapCounter := shadowWrap } := by
  have device : (packedTake vq elem.ndescs).vdev.ringPacked = true := by
    rw [packedTake, packedAdvanceAvail]
    split <;> exact packed
  have counted : vq.inuse + elem.ndescs - elem.ndescs = vq.inuse := by grind
  rw [virtqueueUnpop, if_pos device]
  simp only [virtqueueDetachElement, packedTake, packedAdvanceAvail, virtqueuePackedRewind]
  split <;> split <;> exact ⟨_, _, by rw [counted]⟩

/-! ### Giving an element back -/

/-- `virtqueue_unpop` restores the queue, so that the next pop takes the same element, if and
only if the chain of a packed queue is one descriptor. -/
theorem unpop_undoes_pop_iff (guest : Guest) (vq : VirtQueue)
    (small : vq.vring.num ≤ virtqueueMaxSize) {elem : VirtQueueElement} {after : VirtQueue}
    (popped : virtqueuePop guest vq = .ok (some elem, after)) :
    (Restores vq (virtqueueUnpop after elem) ∧
      virtqueuePop guest (virtqueueUnpop after elem) = .ok (some elem, after)) ↔
    SingleChain guest vq := by
  rw [virtqueuePop] at popped
  split at popped
  · cases popped
  next enabled =>
    split at popped
    next packed =>
      obtain ⟨isNone, -⟩ | ⟨taken, recorded, isTaken, rfl, takes⟩ :=
        virtqueuePackedPop_cases popped
      · cases isNone
      cases isTaken
      obtain ⟨usedElems, rfl, again⟩ := recordInOrder_again takes.recorded
      obtain ⟨shadow, shadowWrap, isUnpop⟩ := virtqueueUnpop_packed { vq with usedElems } elem packed
      have length := packedPopElement_ndescs (Nat.zero_lt_of_lt takes.room) small takes.element
      have back := packedRewind_advance_iff { vq with usedElems } small length.1 length.2
      have chain := packedPopElement_single takes.room small takes.element
      rw [isUnpop]
      constructor
      · rintro ⟨restores, -⟩ -
        obtain ⟨inside, one⟩ := back.mp ⟨restores.lastAvailIdx, restores.lastAvailWrapCounter⟩
        exact ⟨inside, chain.mp one⟩
      · intro single
        obtain ⟨inside, one⟩ := single packed
        obtain ⟨sameIdx, sameWrap⟩ := back.mpr ⟨inside, chain.mpr one⟩
        rw [sameIdx, sameWrap]
        refine ⟨⟨rfl, rfl, rfl, rfl⟩, ?_⟩
        have takes' : PackedTakes guest { vq with
            usedElems, shadowAvailIdx := shadow, shadowAvailWrapCounter := shadowWrap } elem _ :=
          ⟨takes.tested, takes.room, takes.element, again _ rfl rfl⟩
        rw [virtqueuePop, if_neg enabled, if_pos packed, takes'.pop]
        simp only [packedTake, packedAdvanceAvail]
        split <;> rfl
    next split =>
      obtain ⟨shadow, isNone, -⟩ | ⟨isNone, -⟩ | ⟨shadow, taken, recorded, isTaken, rfl, takes⟩ :=
        virtqueueSplitPop_cases popped
      · cases isNone
      · cases isNone
      cases isTaken
      obtain ⟨usedElems, rfl, again⟩ := takes.again
      have single : elem.ndescs = 1 := congrArg VirtQueueElement.ndescs takes.plain
      have isUnpop : virtqueueUnpop { vq with
          shadowAvailIdx := shadow, lastAvailIdx := vq.lastAvailIdx + 1, usedElems,
          inuse := vq.inuse + 1 } elem = { vq with shadowAvailIdx := shadow, usedElems } := by
        simp [virtqueueUnpop, split, virtqueueSplitRewind, virtqueueDetachElement, single]
      rw [isUnpop]
      refine iff_of_true ⟨⟨rfl, rfl, rfl, rfl⟩, ?_⟩ fun packed => absurd packed split
      rw [virtqueuePop, if_neg enabled, if_neg split]
      exact again.pop

def freshPackedQueue : VirtQueue where
  vdev := { ringPacked := true }
  vring := ⟨4, 4096, 0, 0, some 64⟩
  usedElems := List.replicate 4 {}

def chainGuest (two : Bool) : Guest where
  packedFlags := fun _ => 0x80
  packedDesc := fun _ i => { addr := 4096, len := 16, flags := if two ∧ i = 0 then 0x81 else 0x80 }

theorem unpop_undoes_pop_iff_single :
    ∃ elem after, virtqueuePop (chainGuest false) freshPackedQueue = .ok (some elem, after) ∧
      Restores freshPackedQueue (virtqueueUnpop after elem) := by
  have single : SingleChain (chainGuest false) freshPackedQueue := fun _ => by decide
  exact ⟨_, _, rfl, ((unpop_undoes_pop_iff (chainGuest false) freshPackedQueue (by decide) rfl).mpr
    single).1⟩

/-- A chain of two descriptors is popped and given back: `last_avail_idx` is 1, not 0. -/
theorem unpop_two_descriptors :
    ∃ elem after, virtqueuePop (chainGuest true) freshPackedQueue = .ok (some elem, after) ∧
      elem.ndescs = 2 ∧ freshPackedQueue.lastAvailIdx = 0 ∧
      (virtqueueUnpop after elem).lastAvailIdx = 1 :=
  ⟨_, _, rfl, rfl, rfl, rfl⟩

end QemuGzvm.Virtio
