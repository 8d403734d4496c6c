import QemuGzvm.Virtio.SplitRuns

/-!
Contract: the accounting of a split virtqueue without `VIRTIO_F_IN_ORDER`.

Owns:
- `SplitAccounted`: what `inuse`, the two indices and the used ring say of the elements
  popped, pushed and given back;
- that it holds in every run from reset, the used ring where `vring.num` divides the
  range of the 16-bit `used_idx`;
- a run of a ring of three slots that loses an entry.

`used_idx` counts modulo 2^16 and a slot is `used_idx` modulo `vring.num`. Where the
second does not divide the first, the slots jump when `used_idx` wraps.
-/

namespace QemuGzvm.Virtio

open QemuGzvm.Library

/-! ### The accounting -/

/-- What the counters and the used ring of a queue say of what its device model did. -/
structure SplitAccounted (vring : VRing) (s : SplitRun) : Prop where
  inuse_eq : s.queue.inuse.toNat = (s.queue.lastAvailIdx - s.queue.usedIdx).toNat
  inuse_le : s.queue.inuse.toNat ≤ vring.num
  heads_lt : ∀ head ∈ s.heads, head.toNat < vring.num
  /-- Popped and neither pushed nor given back. -/
  outstanding : vring.used ≠ 0 → s.queue.inuse.toNat = s.inflight.length + s.filled.length
  /-- `used_idx` is the number of elements pushed. -/
  published : vring.used ≠ 0 → s.queue.usedIdx.toNat = s.pushed.length % 2 ^ 16
  ring_length : s.queue.usedRing.length = vring.num
  /-- The last `vring.num` elements pushed or filled are in the used ring, in this order. -/
  slots : vring.used ≠ 0 → vring.num ∣ 2 ^ 16 →
    Ring.Holds s.queue.usedRing (s.pushed ++ s.filled)
  /-- The slot that the next fill writes holds nothing, or the element that was written
  `vring.num` elements ago. -/
  overwritten : vring.used ≠ 0 → vring.num ∣ 2 ^ 16 →
    s.queue.usedRing[(UInt32.ofNat s.filled.length + s.queue.usedIdx.toUInt32).toNat %
        vring.num]? =
      some (if vring.num ≤ (s.pushed ++ s.filled).length then
        (s.pushed ++ s.filled)[(s.pushed ++ s.filled).length - vring.num]? else none)

/-- In every run from reset, whatever the guest writes, a queue whose device is not
broken accounts for its elements. -/
theorem splitQueue_accounted (config : SplitConfig) (s : SplitRun)
    (reached : (splitSystem config).ReachedBy (fun _ _ => True) s)
    (unbroken : s.queue.vdev.broken = false) : SplitAccounted config.vring s := by
  have inv := splitInv_of_reached reached unbroken
  have small := inv.inuse_small
  refine ⟨?_, inv.inuse_le, inv.heads, inv.outstanding, inv.published, inv.ringLength, inv.slots,
    fun ring divides => ?_⟩
  · have difference : s.queue.lastAvailIdx - s.queue.usedIdx = s.queue.inuse.toUInt16 := by
      rw [inv.counters]
      grind
    rw [difference, UInt32.toNat_toUInt16]
    omega
  · have next := (inv.slots ring divides).next_slot (by rw [inv.ringLength]; exact config.num_pos)
    rw [← inv.next_slot ring divides] at next
    rw [inv.vring, inv.ringLength] at next
    exact next

/-- Two elements are popped, the first is pushed, the second is given back, popped
again and filled. -/
theorem splitQueue_accounted_filled :
    let config : SplitConfig :=
      { vring := { num := 2, desc := 4096, avail := 8192, used := 12288, caches := some 32 }
        num_pos := by decide
        num_le := by decide
        split := rfl
        unordered := rfl
        working := rfl }
    ∃ s : SplitRun, s.queue.inuse = 1 ∧ s.pushed = [{ id := 1, len := 7 }] ∧
      s.filled = [{ id := 0, len := 9 }] ∧ SplitAccounted config.vring s := by
  intro config
  let guest : Guest :=
    { availIdx := 2, availRing := fun i => if i = 0 then 1 else 0, desc := fun _ _ => { len := 1 } }
  obtain ⟨s, reached, inuse, pushed, filled, unbroken⟩ :
      ∃ s, (splitSystem config).ReachedBy (fun _ _ => True) s ∧ s.queue.inuse = 1 ∧
        s.pushed = [{ id := 1, len := 7 }] ∧ s.filled = [{ id := 0, len := 9 }] ∧
        s.queue.vdev.broken = false :=
    LabelledSystem.exists_reachedBy
      [.pop guest, .pop guest, .push 1 7, .unpop, .pop guest, .fill 0 9] (by decide +kernel)
  exact ⟨s, inuse, pushed, filled, splitQueue_accounted config s reached unbroken⟩

/-! ### Where the used ring is lost

A ring of three slots: the 16-bit `used_idx` wraps from slot 0 to slot 0. -/

/-- A queue whose guest offers one more one-byte buffer each time. -/
def lapConfig : SplitConfig where
  vring := { num := 3, desc := 4096, avail := 8192, used := 12288, caches := some 48 }
  num_pos := by decide
  num_le := by decide
  split := rfl
  unordered := rfl
  working := rfl

def lapGuest (count : Nat) : Guest :=
  { availIdx := UInt16.ofNat (count + 1), desc := fun _ _ => { len := 1 } }

/-- The element pushed after `count` others tells their number by its length. -/
def lapEntry (count : Nat) : VRingUsedElem := { id := 0, len := UInt32.ofNat count }

def lapRing : Nat → List (Option VRingUsedElem)
  | 0 => List.replicate 3 none
  | count + 1 => (lapRing count).set (count % 2 ^ 16 % 3) (some (lapEntry count))

/-- After `count` elements were popped and pushed one by one. -/
def lapState (count : Nat) : SplitRun where
  queue := { lapConfig.reset with
    lastAvailIdx := UInt16.ofNat count
    shadowAvailIdx := UInt16.ofNat count
    usedIdx := UInt16.ofNat count
    usedRing := lapRing count }
  pushed := (List.range count).map lapEntry
  heads := List.replicate count 0

theorem lapRing_length (count : Nat) : (lapRing count).length = 3 := by
  induction count with
  | zero => rfl
  | succ count ih => rw [lapRing, List.length_set, ih]

private theorem ofNat_succ16 (count : Nat) :
    UInt16.ofNat (count + 1) = UInt16.ofNat count + 1 := by
  rw [UInt16.ofNat_add]
  rfl

theorem lapState_empty (count : Nat) :
    virtioQueueEmptyRcu (lapGuest count) (lapState count).queue =
      (false, { (lapState count).queue with shadowAvailIdx := UInt16.ofNat count + 1 }) := by
  have more : (UInt16.ofNat count + 1 == UInt16.ofNat count) = false := by
    rw [beq_eq_false_iff_ne]
    grind
  simp [virtioQueueEmptyRcu, lapState, lapConfig, SplitConfig.reset, virtioDeviceDisabled,
    vringAvailIdx, lapGuest, ofNat_succ16, more]

def lapHeld (count : Nat) : SplitRun :=
  { lapState count with
    queue := { (lapState count).queue with
      lastAvailIdx := UInt16.ofNat count + 1
      shadowAvailIdx := UInt16.ofNat count + 1
      inuse := 1 }
    inflight := [{ index := 0, ndescs := 1, outSg := [{ addr := 0, base := 1, len := 1 }] }]
    heads := 0 :: (lapState count).heads }

theorem lapState_pop (count : Nat) :
    (lapState count).next (.pop (lapGuest count)) = some (lapHeld count) := by
  have pop : virtqueuePop (lapGuest count) (lapState count).queue =
      virtqueueSplitPop (lapGuest count) (lapState count).queue := rfl
  rw [SplitRun.next, pop, virtqueueSplitPop, lapState_empty]
  with_unfolding_all rfl

theorem lapHeld_push (count : Nat) :
    (lapHeld count).next (.push 0 (UInt32.ofNat count)) = some (lapState (count + 1)) := by
  have slot : ((0 : UInt32) + (UInt16.ofNat count).toUInt32).toNat % 3 = count % 2 ^ 16 % 3 := by
    simp
  have pushed : lapState (count + 1) =
      { lapState count with
        queue := { (lapState count).queue with
          lastAvailIdx := UInt16.ofNat count + 1
          shadowAvailIdx := UInt16.ofNat count + 1
          usedIdx := UInt16.ofNat count + 1
          usedRing := (lapRing count).set
            (((0 : UInt32) + (UInt16.ofNat count).toUInt32).toNat % 3) (some (lapEntry count)) }
        pushed := (lapState count).pushed ++ [lapEntry count]
        heads := 0 :: (lapState count).heads } := by
    rw [slot]
    simp only [lapState, ofNat_succ16, lapRing, List.range_succ, List.map_append, List.map_cons,
      List.map_nil, List.replicate_succ]
  rw [pushed]
  with_unfolding_all rfl

theorem lapState_reached (count : Nat) :
    (splitSystem lapConfig).ReachedBy (fun _ _ => True) (lapState count) := by
  induction count with
  | zero => exact .start rfl
  | succ count ih =>
    have held := ih.step _ trivial (lapState_pop count)
    exact held.step _ trivial (lapHeld_push count)

theorem lapState_pushed_length (count : Nat) : (lapState count).pushed.length = count := by
  simp [lapState]

theorem lapState_pushed {count number : Nat} (below : number < count) :
    (lapState count).pushed[number]? = some (lapEntry number) := by
  simp [lapState, below]

theorem lapState_slot (count : Nat) :
    (lapState (count + 1)).queue.usedRing[count % 2 ^ 16 % 3]? = some (some (lapEntry count)) := by
  change ((lapRing count).set (count % 2 ^ 16 % 3) (some (lapEntry count)))[_]? = _
  rw [List.getElem?_set_self]
  rw [lapRing_length]
  exact Nat.mod_lt _ (by decide)

/-- Where the accounting needs its conditions. Without a used ring a pushed element
stays in `inuse`. In a ring of three slots the element pushed when `used_idx` is 65535
is overwritten by the next one. -/
theorem splitQueue_needs_used_ring_and_divisor :
    (∃ (config : SplitConfig) (s : SplitRun),
      (splitSystem config).ReachedBy (fun _ _ => True) s ∧ s.queue.vdev.broken = false ∧
        config.vring.used = 0 ∧ s.inflight.length + s.filled.length = 0 ∧ s.queue.inuse = 1) ∧
    ∃ s : SplitRun, (splitSystem lapConfig).ReachedBy (fun _ _ => True) s ∧
      s.queue.vdev.broken = false ∧ lapConfig.vring.used ≠ 0 ∧ s.pushed.length = 65537 ∧
      s.queue.usedRing[65535 % lapConfig.vring.num]? = some s.pushed[65536]? ∧
      s.pushed[65535]? ≠ s.pushed[65536]? := by
  constructor
  · let config : SplitConfig :=
      { lapConfig with
        vring := { num := 3, desc := 4096, avail := 8192, used := 0, caches := some 48 }
        num_pos := by decide
        num_le := by decide }
    exact ⟨config, LabelledSystem.exists_reachedBy [.pop (lapGuest 0), .push 0 7]
      (by decide +kernel)⟩
  · have last : (lapState 65537).pushed[65536]? = some (lapEntry 65536) :=
      lapState_pushed (by decide)
    have before : (lapState 65537).pushed[65535]? = some (lapEntry 65535) :=
      lapState_pushed (by decide)
    refine ⟨lapState 65537, lapState_reached _, rfl, by decide, lapState_pushed_length _, ?_, ?_⟩
    · rw [last]
      exact lapState_slot 65536
    · rw [before, last]
      decide

end QemuGzvm.Virtio
