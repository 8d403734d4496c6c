import QemuGzvm.Virtio.DropAll
import QemuGzvm.Virtio.PackedCounters

/-!
Contract: what `virtqueue_drop_all` of `hw/virtio/virtio.c` completes.

Owns:
- the chains that the guest has made available, and the completions they ask for;
- the loop for a split queue, which completes them and keeps `inuse`;
- the loop for a packed queue, which takes from `inuse` what it never counted there.
-/

namespace QemuGzvm.Virtio

open QemuGzvm.Library

/-! ### What is asked of a drop -/

/-- The available chains of a split ring: the buffer id, and the descriptors of the ring
that the chain counts for. -/
def splitChains (guest : Guest) (num : Nat) : Nat → UInt16 → List (UInt32 × Nat)
  | 0, _ => []
  | count + 1, last =>
    ((guest.availRing (last.toNat % num)).toUInt32, 1) :: splitChains guest num count (last + 1)

/-- Those of a packed ring, which are known by the id of their last descriptor. -/
def packedChains (guest : Guest) (num : Nat) : Nat → LapCounter → List (UInt32 × Nat)
  | 0, _ => []
  | room + 1, head =>
    if isDescAvail (guest.packedDesc 0 head.index).flags head.wrap then
      let last := (List.range num).findIdx fun step =>
        !descNext (chainDesc guest num head.index step).flags
      ((chainDesc guest num head.index last).id.toUInt32, last + 1) ::
        packedChains guest num room (head.advance num (last + 1))
    else []

def availableChains (guest : Guest) (vq : VirtQueue) : List (UInt32 × Nat) :=
  if virtioDeviceDisabled vq.vdev = true ∨ vq.vring.num ≤ vq.inuse.toNat then []
  else if vq.vdev.ringPacked then
    packedChains guest vq.vring.num vq.vring.num (availCounter vq)
  else
    splitChains guest vq.vring.num (guest.availIdx - vq.lastAvailIdx).toNat vq.lastAvailIdx

/-- What the device tells the guest, and where it goes on. -/
structure UsedArea where
  usedRing : List (Option VRingUsedElem)
  descRing : List (Option VRingPackedDesc)
  next : LapCounter

def usedArea (vq : VirtQueue) : UsedArea := ⟨vq.usedRing, vq.descRing, usedCounter vq⟩

/-- One completion of length 0. -/
def UsedArea.complete (packed : Bool) (num : Nat) (area : UsedArea) (chain : UInt32 × Nat) :
    UsedArea :=
  if packed then
    { area with
      descRing := area.descRing.set area.next.index (some
        { id := chain.1.toUInt16
          flags := if area.next.wrap then packedDescAvail ||| packedDescUsed else 0 })
      next := area.next.advance num chain.2 }
  else
    { area with
      usedRing := area.usedRing.set (area.next.index % num) (some { id := chain.1, len := 0 })
      next := { area.next with index := (area.next.index + 1) % 2 ^ 16 } }

def virtioQueueEmpty (guest : Guest) (vq : VirtQueue) : Checked Bool :=
  if virtioDeviceDisabled vq.vdev then .ok true
  else if vq.vdev.ringPacked then virtioQueuePackedEmptyRcu guest vq
  else .ok (virtioQueueSplitEmpty guest vq).1

/-- Nothing is left that could be taken, every chain is completed, and `inuse` is as before. -/
structure Completes (guest : Guest) (vq after : VirtQueue) : Prop where
  stops : virtioQueueEmpty guest after = .ok true ∨ vq.vring.num ≤ after.inuse.toNat
  used : usedArea after =
    (availableChains guest vq).foldl (UsedArea.complete vq.vdev.ringPacked vq.vring.num)
      (usedArea vq)
  inuse : after.inuse = vq.inuse

/-- A queue without `VIRTIO_F_IN_ORDER` whose rings are set up, with what the guest has in
them. What the device remembers of `avail->idx` is not ahead of it. -/
structure DropSetup (guest : Guest) (vq : VirtQueue) (mapped : Nat) : Prop where
  unordered : vq.vdev.inOrder = false
  small : vq.vring.num ≤ virtqueueMaxSize
  desc : vq.vring.desc ≠ 0
  avail : vq.vring.avail ≠ 0
  used : vq.vring.used ≠ 0
  cached : vq.vring.caches = some mapped
  covers : Covers mapped vq.vring.num
  split : vq.vdev.ringPacked = false →
    (vq.shadowAvailIdx - vq.lastAvailIdx).toNat ≤ (guest.availIdx - vq.lastAvailIdx).toNat ∧
    ∀ chain ∈ splitChains guest vq.vring.num (guest.availIdx - vq.lastAvailIdx).toNat
      vq.lastAvailIdx, chain.1.toNat < vq.vring.num
  packed : vq.vdev.ringPacked = true → vq.lastAvailIdx.toNat < vq.vring.num ∧
    ∀ i, guest.packedFlags i = (guest.packedDesc 0 i).flags

variable {guest : Guest} {vq after : VirtQueue} {mapped : Nat} {dropped : List UInt32}

/-! ### Split queues -/

/-- The part of a queue that the turns of a drop rely on and keep. -/
structure SplitWorks (mapped : Nat) (vq : VirtQueue) : Prop where
  enabled : virtioDeviceDisabled vq.vdev = false
  unordered : vq.vdev.inOrder = false
  split : vq.vdev.ringPacked = false
  avail : vq.vring.avail ≠ 0
  used : vq.vring.used ≠ 0
  cached : vq.vring.caches = some mapped
  room : vq.inuse.toNat < vq.vring.num

def dropTurn (vq : VirtQueue) (head : UInt32) (shadow : UInt16) (valid : Bool) : VirtQueue :=
  { vq with
    shadowAvailIdx := shadow
    lastAvailIdx := vq.lastAvailIdx + 1
    usedRing := vq.usedRing.set (vq.usedIdx.toNat % vq.vring.num) (some { id := head, len := 0 })
    usedIdx := vq.usedIdx + 1
    signalledUsedValid := valid }

/-- The number of entries from one index up to another. -/
theorem toNat_sub_succ {idx last : UInt16} (left : idx ≠ last) :
    (idx - (last + 1)).toNat + 1 = (idx - last).toNat := by
  rw [Ne, ← UInt16.toNat_inj] at left
  have := idx.toNat_lt
  have := last.toNat_lt
  simp only [UInt16.toNat_sub, UInt16.toNat_add, UInt16.toNat_one]
  omega

section SplitDrop

variable (works : SplitWorks mapped vq)
include works

/-- A push takes from `inuse` what the turn has counted there. -/
theorem splitPush_dropTurn (head : UInt32) (shadow : UInt16) :
    ∃ valid, virtqueuePush
        { vq with
          shadowAvailIdx := shadow, inuse := vq.inuse + 1, lastAvailIdx := vq.lastAvailIdx + 1 }
        { index := head } 0 = .ok (dropTurn vq head shadow valid) := by
  simp [virtqueuePush, virtqueueFill, virtqueueFlush, works.enabled, works.unordered,
    works.split, virtqueueSplitFill, virtqueueSplitFlush, works.used, vringUsedWrite,
    works.cached, bind_ok, dropTurn]

/-- Where something is available, a turn completes its chain. What is remembered of
`avail->idx` is brought up to date only where it says nothing is left. -/
theorem splitDrop_turn {head : UInt32} (left : guest.availIdx ≠ vq.lastAvailIdx)
    (isHead : (guest.availRing (vq.lastAvailIdx.toNat % vq.vring.num)).toUInt32 = head)
    (inside : head.toNat < vq.vring.num) :
    ∃ shadow valid, shadow ≠ vq.lastAvailIdx ∧
      (shadow = vq.shadowAvailIdx ∨ shadow = guest.availIdx) ∧
      ∀ rest, virtqueueSplitDropAll (guest :: rest) vq =
        (virtqueueSplitDropAll rest (dropTurn vq head shadow valid)).bind
          fun (dropped, last) => .ok (head :: dropped, last) := by
  have tested : ∃ shadow, virtioQueueSplitEmpty guest vq =
      (false, { vq with shadowAvailIdx := shadow }) ∧ shadow ≠ vq.lastAvailIdx ∧
      (shadow = vq.shadowAvailIdx ∨ shadow = guest.availIdx) := by
    simp only [virtioQueueSplitEmpty, virtioQueueEmptyRcu, works.enabled, works.avail,
      vringAvailIdx, works.cached, Bool.false_eq_true, if_false]
    split
    next pending => exact ⟨_, rfl, pending, .inl rfl⟩
    · exact ⟨_, by simp [left], left, .inr rfl⟩
  obtain ⟨shadow, tested, pending, isShadow⟩ := tested
  obtain ⟨valid, pushed⟩ := splitPush_dropTurn works head shadow
  refine ⟨shadow, valid, pending, isShadow, fun rest => ?_⟩
  simp [virtqueueSplitDropAll, tested, not_le.mpr works.room, virtqueueGetHead, vringAvailRing,
    works.cached, isHead, not_le.mpr inside, pushed, bind_ok]

theorem splitEmpty_none (nothing : guest.availIdx = vq.lastAvailIdx)
    (shadow : vq.shadowAvailIdx = vq.lastAvailIdx) :
    virtioQueueSplitEmpty guest vq = (true, vq) := by
  simp only [virtioQueueSplitEmpty, virtioQueueEmptyRcu, works.enabled, works.avail, vringAvailIdx,
    works.cached, Bool.false_eq_true, if_false, shadow, ne_eq, not_true, nothing, beq_self_eq_true]
  cases vq
  cases shadow
  rfl

/-- With one turn more than chains the loop ends. -/
theorem splitDropAll_completes {count : Nat} 
    (isCount : (guest.availIdx - vq.lastAvailIdx).toNat = count)
    (shadow : (vq.shadowAvailIdx - vq.lastAvailIdx).toNat ≤ count)
    (heads : ∀ chain ∈ splitChains guest vq.vring.num count vq.lastAvailIdx,
      chain.1.toNat < vq.vring.num) :
    ∃ dropped after,
      virtqueueSplitDropAll (List.replicate (count + 1) guest) vq = .ok (dropped, after) ∧
      (virtioQueueSplitEmpty guest after).1 = true ∧ SplitWorks mapped after ∧
      after.inuse = vq.inuse ∧
      usedArea after = (splitChains guest vq.vring.num count vq.lastAvailIdx).foldl
        (UsedArea.complete false vq.vring.num) (usedArea vq) := by
  induction count generalizing vq with
  | zero =>
    have none {idx : UInt16} (zero : (idx - vq.lastAvailIdx).toNat = 0) : idx = vq.lastAvailIdx := by
      by_contra left
      have := toNat_sub_succ left
      omega
    have tested := splitEmpty_none works (none isCount) (none (Nat.le_zero.mp shadow))
    refine ⟨[], vq, ?_, by rw [tested], works, rfl, rfl⟩
    simp [virtqueueSplitDropAll, tested]
  | succ count ih =>
    have left : guest.availIdx ≠ vq.lastAvailIdx := by
      rintro same
      simp [same] at isCount
    obtain ⟨head, isHead⟩ : ∃ head, (guest.availRing (vq.lastAvailIdx.toNat %
      vq.vring.num)).toUInt32 = head := ⟨_, rfl⟩
    rw [splitChains, isHead] at heads ⊢
    obtain ⟨seen, valid, pending, isSeen, turn⟩ :=
      splitDrop_turn works left isHead (heads _ List.mem_cons_self)
    have further := toNat_sub_succ left
    have behind := toNat_sub_succ pending
    obtain ⟨dropped, after, ran, empty, worksAfter, inuse, used⟩ :=
      @ih (dropTurn vq head seen valid) { works with } (by dsimp only [dropTurn]; omega)
        (by
          dsimp only [dropTurn]
          rcases isSeen with rfl | rfl <;> omega)
        fun chain member => heads chain (List.mem_cons_of_mem _ member)
    refine ⟨head :: dropped, after, ?_, empty, worksAfter, inuse, ?_⟩
    · rw [List.replicate_succ, turn, ran]
      rfl
    · rw [used]
      simp [usedArea, usedCounter, dropTurn, UsedArea.complete]

end SplitDrop

/-! ### Packed queues -/

theorem packedChainLength_eq {num fuel reads next : Nat} {desc : VRingPackedDesc}
    {ndescs total : UInt32}
    (walked : packedChainLength guest num mapped fuel reads next desc ndescs = .ok total) :
    ∃ steps < fuel, total = ndescs + UInt32.ofNat steps := by
  induction fuel generalizing reads next desc ndescs with
  | zero => cases walked
  | succ fuel ih =>
    obtain ⟨more, -, walked⟩ := bind_eq_ok.mp walked
    cases more with
    | none =>
      cases walked
      exact ⟨0, Nat.succ_pos fuel, (UInt32.add_zero _).symm⟩
    | some following =>
      obtain ⟨steps, below, isTotal⟩ := ih walked
      refine ⟨1 + steps, by omega, ?_⟩
      rw [isTotal, UInt32.ofNat_add, UInt32.add_assoc]
      rfl

section PackedDrop

variable (packed : vq.vdev.ringPacked = true) (unordered : vq.vdev.inOrder = false)
  (enabled : virtioDeviceDisabled vq.vdev = false) (desc : vq.vring.desc ≠ 0)
include packed unordered enabled desc

/-- A push takes the descriptors of its element from `inuse`. -/
theorem packedPush_inuse {elem : VirtQueueElement} (pushed : virtqueuePush vq elem 0 = .ok after) :
    after.inuse = vq.inuse - elem.ndescs ∧ after.vdev = vq.vdev ∧ after.vring = vq.vring := by
  obtain ⟨filled, filling, flushing⟩ := bind_eq_ok.mp pushed
  rw [virtqueueFill_packed enabled unordered packed] at filling
  obtain ⟨old, present, result⟩ := bind_eq_ok.mp filling
  cases result
  simp only [virtqueueFlush, enabled, unordered, packed, virtqueuePackedFlush, desc, if_true,
    if_false, Bool.false_eq_true] at flushing
  obtain ⟨first, read, flushing⟩ := bind_eq_ok.mp flushing
  have length : first.ndescs = elem.ndescs := by
    grind [readAt_eq_ok]
  cases flushing
  grind [packedAdvanceUsed, virtqueuePackedFillDesc, packedFlushRest]

/-- The loop stops at once, or leaves `inuse` lower, or so high that it stops later. -/
theorem packedDropLoop_inuse {guests : List Guest} (small : vq.vring.num ≤ virtqueueMaxSize)
    (ran : packedDropLoop vq.vring.num mapped guests vq = .ok (dropped, after)) :
    after = vq ∧ (vq.vring.num ≤ vq.inuse.toNat ∨
        ∃ guest ∈ guests, packedHeadAvail guest vq = false) ∨
      vq.inuse.toNat < vq.vring.num ∧
        (after.inuse.toNat < vq.inuse.toNat ∨ vq.vring.num ≤ after.inuse.toNat) := by
  induction guests generalizing vq dropped after with
  | nil => cases ran
  | cons guest rest ih =>
    rw [packedDropLoop] at ran
    split at ran
    next full =>
      cases ran
      exact .inl ⟨rfl, .inl full⟩
    next room =>
      obtain ⟨head, read, ran⟩ := bind_eq_ok.mp ran
      split at ran
      next unavailable =>
        cases ran
        have isHead : guest.packedDesc 0 vq.lastAvailIdx.toNat = head := by grind [readDescCached]
        refine .inl ⟨rfl, .inr ⟨guest, List.mem_cons_self, ?_⟩⟩
        simpa [packedHeadAvail, isHead] using unavailable
      · obtain ⟨ndescs, walked, ran⟩ := bind_eq_ok.mp ran
        obtain ⟨middle, pushed, ran⟩ := bind_eq_ok.mp ran
        obtain ⟨⟨others, last⟩, further, result⟩ := bind_eq_ok.mp ran
        cases result
        obtain ⟨steps, below, isLength⟩ := packedChainLength_eq walked
        obtain ⟨inuse, vdev, vring⟩ := packedPush_inuse packed unordered enabled desc pushed
        obtain ⟨idx, wrap, framed⟩ := packedAdvanceAvail_frame middle ndescs
        rw [framed, ← vring] at further
        rw [← vdev] at packed unordered enabled
        rw [← vring] at desc small below room ⊢
        -- The chain is not longer than the ring: `inuse` wraps around to more than fits.
        have length : ndescs.toNat = 1 + steps := by
          unfold virtqueueMaxSize at small
          rw [isLength, UInt32.toNat_add, UInt32.toNat_ofNat']
          simp only [UInt32.toNat_one]
          omega
        have left : middle.inuse.toNat = (2 ^ 32 - (1 + steps) + vq.inuse.toNat) % 2 ^ 32 := by
          rw [inuse, UInt32.toNat_sub, length]
        refine .inr ⟨Nat.lt_of_not_le room, ?_⟩
        unfold virtqueueMaxSize at small
        rcases @ih { middle with lastAvailIdx := idx, lastAvailWrapCounter := wrap } _ _ packed
          unordered enabled desc small further with ⟨rfl, -⟩ | ⟨further, stopped⟩
        · dsimp only
          omega
        · dsimp only at further stopped
          omega

end PackedDrop

/-! ### The call -/

/-- A packed queue has nothing that the call could drop. -/
def DropFits (guest : Guest) (vq : VirtQueue) : Prop :=
  vq.vdev.ringPacked = true → virtioDeviceDisabled vq.vdev = true ∨
    vq.vring.num ≤ vq.inuse.toNat ∨ packedHeadAvail guest vq = false

/-- The call ends, on a ring that does not change, and has completed what was available. -/
def DropCompletes (guest : Guest) (vq : VirtQueue) : Prop :=
  ∃ turns dropped after, (∀ fuel, vq.vring.num ≤ fuel →
    virtqueueDropAll fuel (List.replicate turns guest) vq = .ok (dropped, after)) ∧
      Completes guest vq after

theorem dropCompletes_nothing (shadow : UInt16) (none : availableChains guest vq = [])
    (ran : ∀ fuel, virtqueueDropAll fuel [guest] vq =
      .ok ([], { vq with shadowAvailIdx := shadow }))
    (stops : virtioQueueEmpty guest { vq with shadowAvailIdx := shadow } = .ok true ∨
      vq.vring.num ≤ vq.inuse.toNat) : DropCompletes guest vq := by
  refine ⟨1, [], _, fun fuel _ => ran fuel, stops, ?_, rfl⟩
  rw [none]
  rfl

section Call

variable (setup : DropSetup guest vq mapped) (enabled : virtioDeviceDisabled vq.vdev = false)
include setup enabled

theorem dropCompletes_full (full : vq.vring.num ≤ vq.inuse.toNat) : DropCompletes guest vq := by
  obtain ⟨empty, shadow, tested⟩ : ∃ empty shadow, virtioQueueSplitEmpty guest vq =
      (empty, { vq with shadowAvailIdx := shadow }) := by
    rcases virtioQueueEmptyRcu_cases guest vq with tested | ⟨-, empty, shadow, tested, -⟩
    · exact ⟨true, vq.shadowAvailIdx, tested⟩
    · exact ⟨empty, shadow, tested⟩
  have none : availableChains guest vq = [] := by simp [availableChains, full]
  cases layout : vq.vdev.ringPacked with
  | false =>
    refine dropCompletes_nothing shadow none (fun fuel => ?_) (.inr full)
    simp [virtqueueDropAll, enabled, layout, virtqueueSplitDropAll, tested, full]
  | true =>
    refine dropCompletes_nothing vq.shadowAvailIdx none (fun fuel => ?_) (.inr full)
    simp [virtqueueDropAll, enabled, layout, virtqueuePackedDropAll, setup.cached,
      packedDropLoop, full]

theorem dropCompletes_split (room : ¬vq.vring.num ≤ vq.inuse.toNat)
    (layout : vq.vdev.ringPacked = false) : DropCompletes guest vq := by
  obtain ⟨shadow, heads⟩ := setup.split layout
  have works : SplitWorks mapped vq :=
    ⟨enabled, setup.unordered, layout, setup.avail, setup.used, setup.cached,
      Nat.lt_of_not_le room⟩
  obtain ⟨dropped, after, ran, empty, worksAfter, inuse, used⟩ :=
    splitDropAll_completes works rfl shadow heads
  refine ⟨(guest.availIdx - vq.lastAvailIdx).toNat + 1, dropped, after, fun fuel _ => ?_,
    .inl ?_, ?_, inuse⟩
  · rw [virtqueueDropAll, enabled, layout]
    exact ran
  · simp [virtioQueueEmpty, worksAfter.enabled, worksAfter.split, empty]
  · simp only [availableChains, enabled, room, layout, used]
    rfl

theorem dropCompletes_packed_iff (room : ¬vq.vring.num ≤ vq.inuse.toNat)
    (layout : vq.vdev.ringPacked = true) :
    DropCompletes guest vq ↔ packedHeadAvail guest vq = false := by
  obtain ⟨inside, flags⟩ := setup.packed layout
  constructor
  · rintro ⟨turns, dropped, after, ran, completes⟩
    have loop := ran _ (Nat.le_refl _)
    simp only [virtqueueDropAll, enabled, layout, virtqueuePackedDropAll, setup.cached,
      Bool.false_eq_true, if_false, if_true] at loop
    rcases packedDropLoop_inuse layout setup.unordered enabled setup.desc setup.small loop with
      ⟨-, full | ⟨other, member, empty⟩⟩ | ⟨-, moved⟩
    · exact absurd full room
    · rw [List.eq_of_mem_replicate member] at empty
      exact empty
    · rw [completes.inuse] at moved
      omega
  · intro empty
    rw [packedHeadAvail] at empty
    have read {Desc : Type} (table : Nat → Nat → Desc) :=
      readDescCached_inside setup.covers inside table 0
    obtain ⟨num, isNum⟩ := Nat.exists_eq_succ_of_ne_zero (Nat.ne_zero_of_lt inside)
    refine dropCompletes_nothing vq.shadowAvailIdx ?_ (fun fuel => ?_) (.inl ?_)
    · simp [availableChains, enabled, layout, isNum, packedChains, availCounter, empty]
    · simp [virtqueueDropAll, enabled, layout, virtqueuePackedDropAll, setup.cached,
        packedDropLoop, room, read, bind_ok, empty]
    · simp [virtioQueueEmpty, enabled, layout, virtioQueuePackedEmptyRcu, setup.desc,
        setup.cached, read, flags, empty, Except.map]

end Call

/-- The call does what is asked of it exactly if the queue is split or has nothing to drop. -/
theorem dropAll_completes_iff (setup : DropSetup guest vq mapped) :
    DropCompletes guest vq ↔ DropFits guest vq := by
  unfold DropFits
  cases enabled : virtioDeviceDisabled vq.vdev with
  | true =>
    refine iff_of_true (dropCompletes_nothing vq.shadowAvailIdx ?_ (fun fuel => ?_)
      (.inl ?_)) fun _ => .inl rfl
    · simp [availableChains, enabled]
    · simp [virtqueueDropAll, enabled]
    · simp [virtioQueueEmpty, enabled]
  | false =>
    by_cases full : vq.vring.num ≤ vq.inuse.toNat
    · exact iff_of_true (dropCompletes_full setup enabled full) fun _ => .inr (.inl full)
    · cases layout : vq.vdev.ringPacked with
      | false =>
        apply iff_of_true (dropCompletes_split setup enabled full layout)
        intro impossible
        cases impossible
      | true => simp [dropCompletes_packed_iff setup enabled full layout, full]

private def splitPair : VirtQueue :=
  { vdev := {}
    vring := { num := 2, desc := 4096, avail := 8192, used := 12288, caches := some 32 }
    usedElems := [] }

private def twoHeads : Guest := { availIdx := 2, availRing := fun i => if i = 0 then 1 else 0 }

private def packedPair : VirtQueue :=
  { vdev := { ringPacked := true }
    vring := { num := 4, desc := 4096, avail := 8192, used := 12288, caches := some 64 }
    usedElems := List.replicate 4 {}
    inuse := 2 }

private def pairChain : Guest :=
  { packedDesc := fun _ i => if i = 0 then { id := 5, flags := 0x81 } else { id := 7, flags := 0 } }

/-- Two chains of a split queue are completed. -/
theorem dropAll_completes_iff_split : DropCompletes twoHeads splitPair := by
  have setup : DropSetup twoHeads splitPair 32 :=
    ⟨rfl, by decide, by decide, by decide, by decide, rfl, Nat.le_refl 32, fun _ => by decide, nofun⟩
  exact (dropAll_completes_iff setup).mpr nofun

/-- A chain of two descriptors is completed with the id of its first, and `inuse` loses the
two descriptors that a device model still has. -/
theorem dropAll_packed_chain :
    availableChains pairChain packedPair = [(7, 2)] ∧
    ∃ after, virtqueueDropAll 4 (List.replicate 2 pairChain) packedPair = .ok ([5], after) ∧
      after.descRing[0]? = some (some { id := 5, flags := 0x8080 }) ∧ packedPair.inuse = 2 ∧
      after.inuse = 0 :=
  ⟨by decide, _, rfl, by decide, rfl, by decide⟩

end QemuGzvm.Virtio
