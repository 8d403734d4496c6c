import QemuGzvm.Virtio.SplitRing

/-!
Contract: the packed layout of `hw/virtio/virtio.c`.

Owns:
- the emptiness test and the walk along a chain, in the ring or in an indirect table;
- `virtqueue_packed_pop`, `virtqueue_packed_fill`, `virtqueue_packed_fill_desc`,
  `virtqueue_packed_flush` and `virtqueue_packed_rewind`;
- what a pop can do to a queue without `VIRTIO_F_IN_ORDER`.
-/

namespace QemuGzvm.Virtio

open QemuGzvm.Library

def virtioQueuePackedEmptyRcu (guest : Guest) (vq : VirtQueue) : Checked Bool :=
  if vq.vring.desc = 0 then .ok true
  else
    match vq.vring.caches with
    | none => .ok true
    | some mapped =>
      (readDescCached mapped (fun _ => guest.packedFlags) 0 vq.lastAvailIdx.toNat).map
        fun flags => !isDescAvail flags vq.lastAvailWrapCounter

/-! ### Chains -/

/-- `none` is `VIRTQUEUE_READ_DESC_DONE`; otherwise the descriptor read and its index. -/
def virtqueuePackedReadNextDesc (num : Nat) (table : Nat → Nat → VRingPackedDesc)
    (mapped reads : Nat) (desc : VRingPackedDesc) (max next : Nat) (indirect : Bool) :
    Checked (Option (VRingPackedDesc × Nat)) :=
  if !indirect && !descNext desc.flags then .ok none
  else if next + 1 = max then
    if indirect then .ok none
    else
      (readDescCached mapped table reads (next + 1 - num)).map fun desc =>
        some (desc, next + 1 - num)
  else (readDescCached mapped table reads (next + 1)).map fun desc => some (desc, next + 1)

/-- The loop over a chain; `room` is `max - elem_entries`. Returns the buffers, the
last descriptor and `elem_entries`. -/
def packedPopChain (guest : Guest) (num : Nat) (table : Nat → Nat → VRingPackedDesc)
    (mapped max : Nat) (indirect : Bool) : Nat → Nat → Nat → Nat → VRingPackedDesc → SgLists →
      Except Stop (SgLists × VRingPackedDesc × Nat)
  | room, entries, reads, next, desc, sgs =>
    (mapChainDesc guest desc.flags desc.addr desc.len sgs).bind fun sgs =>
      match room with
      | 0 => .error (.report .loopedDescriptor)
      | room + 1 =>
        ((virtqueuePackedReadNextDesc num table mapped reads desc max next indirect).mapError
          .fault).bind fun more =>
            match more with
            | none => .ok (sgs, desc, entries + 1)
            | some (desc, next) =>
              packedPopChain guest num table mapped max indirect room (entries + 1)
                (reads + 1) next desc sgs

/-- The element at `last_avail_idx`. A chain in the ring is known by the id of its last
descriptor, an indirect one by the id of the descriptor that refers to its table. -/
def packedPopElement (guest : Guest) (vq : VirtQueue) : Except Stop VirtQueueElement :=
  (checkDescCache vq.vring).bind fun mapped =>
    let head := vq.lastAvailIdx.toNat
    ((readDescCached mapped guest.packedDesc 0 head).mapError .fault).bind fun desc =>
      if descIndirect desc.flags then
        if desc.len.toNat % sizeofDesc ≠ 0 then .error (.report .invalidIndirectSize)
        else
          (mapIndirect guest desc.addr desc.len).bind fun (mapped, max) =>
            ((readDescCached mapped guest.indirectPackedDesc 0 0).mapError .fault).bind fun first =>
              (packedPopChain guest vq.vring.num guest.indirectPackedDesc mapped max true max 0 1 0
                first {}).map fun (sgs, _, _) =>
                  { index := desc.id.toUInt32, ndescs := 1, outSg := sgs.outSg, inSg := sgs.inSg }
      else
        (packedPopChain guest vq.vring.num guest.packedDesc mapped vq.vring.num false vq.vring.num 0
          1 head desc {}).map fun (sgs, last, entries) =>
            { index := last.id.toUInt32, ndescs := UInt32.ofNat entries, outSg := sgs.outSg,
              inSg := sgs.inSg }

/-! ### Operations -/

/-- `last_avail_idx += ndescs`, and the wrap. -/
def packedAdvanceAvail (vq : VirtQueue) (ndescs : UInt32) : VirtQueue :=
  let idx := vq.lastAvailIdx + ndescs.toUInt16
  if vq.vring.num ≤ idx.toNat then
    { vq with
      lastAvailIdx := idx - UInt16.ofNat vq.vring.num
      lastAvailWrapCounter := !vq.lastAvailWrapCounter }
  else { vq with lastAvailIdx := idx }

/-- `used_idx += ndescs`, and the wrap. -/
def packedAdvanceUsed (vq : VirtQueue) (ndescs : UInt32) : VirtQueue :=
  let idx := vq.usedIdx + ndescs.toUInt16
  if vq.vring.num ≤ idx.toNat then
    { vq with
      usedIdx := idx - UInt16.ofNat vq.vring.num
      usedWrapCounter := !vq.usedWrapCounter
      signalledUsedValid := false }
  else { vq with usedIdx := idx }

def packedTake (vq : VirtQueue) (ndescs : UInt32) : VirtQueue :=
  let moved := { packedAdvanceAvail vq ndescs with inuse := vq.inuse + ndescs }
  { moved with
    shadowAvailIdx := moved.lastAvailIdx
    shadowAvailWrapCounter := moved.lastAvailWrapCounter }

def virtqueuePackedPop (guest : Guest) (vq : VirtQueue) :
    Checked (Option VirtQueueElement × VirtQueue) :=
  (virtioQueuePackedEmptyRcu guest vq).bind fun empty =>
    if empty then .ok (none, vq)
    else if vq.vring.num ≤ vq.inuse.toNat then .ok (none, virtioError vq .sizeExceeded)
    else
      match packedPopElement guest vq with
      | .error (.fault fault) => .error fault
      | .error (.report error) => .ok (none, virtioError vq error)
      | .ok elem =>
        (recordInOrder vq vq.lastAvailIdx.toNat elem).bind fun vq =>
          .ok (some elem, packedTake vq elem.ndescs)

def virtqueuePackedRewind (vq : VirtQueue) (num : UInt32) : VirtQueue :=
  if vq.lastAvailIdx.toNat < num.toNat then
    { vq with
      lastAvailIdx :=
        (UInt32.ofNat vq.vring.num + vq.lastAvailIdx.toUInt32 - num).toUInt16
      lastAvailWrapCounter := !vq.lastAvailWrapCounter }
  else { vq with lastAvailIdx := vq.lastAvailIdx - num.toUInt16 }

def virtqueuePackedFill (vq : VirtQueue) (elem : VirtQueueElement) (len idx : UInt32) :
    Checked VirtQueue :=
  (readAt vq.usedElems idx.toNat).bind fun old =>
    let entry := { old with index := elem.index, len, ndescs := elem.ndescs }
    .ok { vq with usedElems := vq.usedElems.set idx.toNat entry }

/-- Writes the used descriptor `idx` places behind `used_idx`. -/
def virtqueuePackedFillDesc (vq : VirtQueue) (elem : VirtQueueElement) (idx : UInt32) :
    VirtQueue :=
  if vq.vring.desc = 0 then vq
  else
    let head := vq.usedIdx + idx.toUInt16
    let wraps := decide (vq.vring.num ≤ head.toNat)
    let head := if wraps then head - UInt16.ofNat vq.vring.num else head
    let wrapCounter := vq.usedWrapCounter ^^ wraps
    let desc : VRingPackedDesc :=
      { id := elem.index.toUInt16
        len := elem.len
        flags := if wrapCounter then packedDescAvail ||| packedDescUsed else 0 }
    match vq.vring.caches with
    | none => vq
    | some _ => { vq with descRing := vq.descRing.set head.toNat (some desc) }

/-- The loop over the elements behind the first, `left` of them, from `used_elems[i]`. -/
def packedFlushRest : Nat → Nat → UInt32 → VirtQueue → Checked (UInt32 × VirtQueue)
  | 0, _, ndescs, vq => .ok (ndescs, vq)
  | left + 1, i, ndescs, vq =>
    (readAt vq.usedElems i).bind fun elem =>
      packedFlushRest left (i + 1) (ndescs + elem.ndescs)
        (virtqueuePackedFillDesc vq elem ndescs)

/-- The first element is written last, so that the guest sees the batch at once. -/
def virtqueuePackedFlush (vq : VirtQueue) (count : UInt32) : Checked VirtQueue :=
  if vq.vring.desc = 0 then .ok vq
  else
    (readAt vq.usedElems 0).bind fun first =>
      (packedFlushRest (count.toNat - 1) 1 first.ndescs vq).bind fun (ndescs, vq) =>
        let vq := virtqueuePackedFillDesc vq first 0
        .ok (packedAdvanceUsed { vq with inuse := vq.inuse - ndescs } ndescs)

/-! ### What a pop does -/

/-- Where an in-order queue records the element it pops next. A split queue computes this
from `last_avail_idx` after the increment. -/
def recordIndex (vq : VirtQueue) : Nat :=
  if vq.vdev.ringPacked then vq.lastAvailIdx.toNat
  else ((vq.lastAvailIdx + 1).toUInt32 - 1).toNat % vq.vring.num

variable {guest : Guest} {elem : VirtQueueElement} {vq after : VirtQueue}

/-- A chain has one entry at least, and no more than there is room for. -/
theorem packedPopChain_entries {num mapped max : Nat}
    {table : Nat → Nat → VRingPackedDesc} {indirect : Bool} {room entries reads next : Nat}
    {desc last : VRingPackedDesc} {sgs buffers : SgLists} {total : Nat}
    (walked : packedPopChain guest num table mapped max indirect room entries reads next desc sgs =
      .ok (buffers, last, total)) : entries < total ∧ total ≤ entries + room := by
  induction room generalizing entries reads next desc sgs with
  | zero =>
    rw [packedPopChain] at walked
    obtain ⟨more, -, walked⟩ := stop_bind_eq_ok.mp walked
    cases walked
  | succ room ih =>
    rw [packedPopChain] at walked
    obtain ⟨more, -, walked⟩ := stop_bind_eq_ok.mp walked
    obtain ⟨following, -, walked⟩ := stop_bind_eq_ok.mp walked
    cases following with
    | none =>
      cases walked
      omega
    | some following =>
      have rest := ih walked
      omega

theorem packedPopElement_ndescs (ring : 0 < vq.vring.num) (small : vq.vring.num ≤ virtqueueMaxSize)
    (collected : packedPopElement guest vq = .ok elem) :
    0 < elem.ndescs.toNat ∧ elem.ndescs.toNat ≤ vq.vring.num := by
  unfold virtqueueMaxSize at small
  obtain ⟨mapped, -, collected⟩ := stop_bind_eq_ok.mp collected
  obtain ⟨desc, -, collected⟩ := stop_bind_eq_ok.mp collected
  split at collected
  · -- An indirect table is one descriptor of the ring.
    split at collected
    · cases collected
    · obtain ⟨cache, -, collected⟩ := stop_bind_eq_ok.mp collected
      obtain ⟨first, -, collected⟩ := stop_bind_eq_ok.mp collected
      obtain ⟨result, -, eq⟩ := map_eq_ok.mp collected
      rw [← eq]
      exact ⟨Nat.one_pos, ring⟩
  · obtain ⟨result, walked, eq⟩ := map_eq_ok.mp collected
    have bounds := packedPopChain_entries walked
    rw [← eq]
    rw [UInt32.toNat_ofNat']
    omega

/-- A packed queue that has something available has a ring. -/
theorem virtioQueuePackedEmptyRcu_desc {empty : Bool}
    (tested : virtioQueuePackedEmptyRcu guest vq = .ok empty) (available : ¬empty = true) :
    vq.vring.desc ≠ 0 := by
  grind [virtioQueuePackedEmptyRcu]

theorem packedPopElement_caches (collected : packedPopElement guest vq = .ok elem) :
    vq.vring.caches ≠ none := by
  obtain ⟨mapped, checked, -⟩ := stop_bind_eq_ok.mp collected
  rw [(checkDescCache_ok checked).1]
  exact Option.some_ne_none mapped

/-- A pop that takes `elem`, up to its record. -/
structure PackedTakes (guest : Guest) (vq : VirtQueue) (elem : VirtQueueElement)
    (recorded : VirtQueue) : Prop where
  tested : virtioQueuePackedEmptyRcu guest vq = .ok false
  room : vq.inuse.toNat < vq.vring.num
  element : packedPopElement guest vq = .ok elem
  recorded : recordInOrder vq vq.lastAvailIdx.toNat elem = .ok recorded

theorem PackedTakes.pop {recorded : VirtQueue} (takes : PackedTakes guest vq elem recorded) :
    virtqueuePackedPop guest vq = .ok (some elem, packedTake recorded elem.ndescs) := by
  simp [virtqueuePackedPop, takes.tested, bind_ok, if_neg (Nat.not_le.mpr takes.room),
      takes.element, takes.recorded]

theorem virtqueuePackedPop_cases {elem : Option VirtQueueElement}
    (popped : virtqueuePackedPop guest vq = .ok (elem, after)) :
    (elem = none ∧ (after = vq ∨ after.vdev.broken = true)) ∨
    ∃ taken recorded, elem = some taken ∧ after = packedTake recorded taken.ndescs ∧
      PackedTakes guest vq taken recorded := by
  obtain ⟨empty, tested, popped⟩ := bind_eq_ok.mp popped
  split at popped
  · cases popped
    exact Or.inl ⟨rfl, Or.inl rfl⟩
  next available =>
    rw [Bool.not_eq_true] at available
    rw [available] at tested
    split at popped
    · cases popped
      exact Or.inl ⟨rfl, Or.inr rfl⟩
    next room =>
      split at popped
      · cases popped
      · cases popped
        exact Or.inl ⟨rfl, Or.inr rfl⟩
      next taken collected =>
        obtain ⟨recorded, recording, result⟩ := bind_eq_ok.mp popped
        cases result
        exact Or.inr ⟨taken, recorded, rfl, rfl, tested, Nat.lt_of_not_le room, collected,
          recording⟩

/-- What a pop can do to a queue without `VIRTIO_F_IN_ORDER`. -/
inductive PackedPopped (vq : VirtQueue) : Option VirtQueueElement → VirtQueue → Prop
  | empty : PackedPopped vq none vq
  | broken {after : VirtQueue} (broken : after.vdev.broken = true) : PackedPopped vq none after
  | element {elem : VirtQueueElement} (ring : vq.vring.desc ≠ 0)
      (room : vq.inuse.toNat < vq.vring.num) (positive : 0 < elem.ndescs.toNat)
      (bounded : elem.ndescs.toNat ≤ vq.vring.num) :
      PackedPopped vq (some elem) (packedTake vq elem.ndescs)

theorem virtqueuePackedPop_popped {elem : Option VirtQueueElement}
    (unordered : vq.vdev.inOrder = false) (small : vq.vring.num ≤ virtqueueMaxSize)
    (popped : virtqueuePackedPop guest vq = .ok (elem, after)) : PackedPopped vq elem after := by
  rcases virtqueuePackedPop_cases popped with
    ⟨rfl, rfl | broken⟩ | ⟨taken, recorded, rfl, rfl, takes⟩
  · exact .empty
  · exact .broken broken
  · have recording := takes.recorded
    simp only [recordInOrder, unordered, Bool.false_eq_true, if_false] at recording
    cases recording
    have length := packedPopElement_ndescs (Nat.zero_lt_of_lt takes.room) small takes.element
    exact .element (virtioQueuePackedEmptyRcu_desc takes.tested Bool.false_ne_true) takes.room
      length.1 length.2

end QemuGzvm.Virtio
