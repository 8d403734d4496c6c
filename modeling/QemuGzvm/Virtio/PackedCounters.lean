import QemuGzvm.Library.Ring
import QemuGzvm.Virtio.Operations
import Mathlib.Algebra.BigOperators.Group.List.Basic

/-!
Contract: how the operations of a packed virtqueue move its counters.

Owns:
- the two indices with their wrap counters as positions on two laps of the ring;
- what each operation leaves as it is;
- the descriptors that a list of elements consumes, and a flush of a batch of them.
-/

namespace QemuGzvm.Virtio

open QemuGzvm.Library

/-! ### Counters -/

def availCounter (vq : VirtQueue) : LapCounter :=
  { index := vq.lastAvailIdx.toNat, wrap := vq.lastAvailWrapCounter }

def usedCounter (vq : VirtQueue) : LapCounter :=
  { index := vq.usedIdx.toNat, wrap := vq.usedWrapCounter }

variable {ndescs : UInt32} {elems : List VirtQueueElement} {vq after : VirtQueue}

/-- The 16-bit index does not overflow before the wrap. -/
theorem index_advance {num : Nat} {idx : UInt16} (numSmall : num ≤ virtqueueMaxSize)
    (inside : idx.toNat < num) (short : ndescs.toNat ≤ num) :
    (idx + ndescs.toUInt16).toNat = idx.toNat + ndescs.toNat ∧
      (num ≤ idx.toNat + ndescs.toNat →
        (idx + ndescs.toUInt16 - UInt16.ofNat num).toNat = idx.toNat + ndescs.toNat - num) := by
  unfold virtqueueMaxSize at numSmall
  have sum : (idx + ndescs.toUInt16).toNat = idx.toNat + ndescs.toNat := by
    rw [UInt16.toNat_add, UInt32.toNat_toUInt16]
    omega
  refine ⟨sum, fun wraps => ?_⟩
  have size : (UInt16.ofNat num).toNat = num := by
    rw [UInt16.toNat_ofNat']
    omega
  rw [UInt16.toNat_sub_of_le _ _ (UInt16.le_iff_toNat_le.mpr (by omega)), sum, size]

section Counters

variable (numSmall : vq.vring.num ≤ virtqueueMaxSize)
include numSmall

theorem availCounter_advance (inside : vq.lastAvailIdx.toNat < vq.vring.num)
    (short : ndescs.toNat ≤ vq.vring.num) :
    availCounter (packedAdvanceAvail vq ndescs) =
      (availCounter vq).advance vq.vring.num ndescs.toNat := by
  obtain ⟨sum, wrapped⟩ := index_advance numSmall inside short
  by_cases wraps : vq.vring.num ≤ vq.lastAvailIdx.toNat + ndescs.toNat
  · grind [packedAdvanceAvail, availCounter, LapCounter.advance]
  · simp only [packedAdvanceAvail, sum, if_neg wraps, availCounter, LapCounter.advance]
    exact (if_neg wraps).symm

theorem usedCounter_advance (inside : vq.usedIdx.toNat < vq.vring.num)
    (short : ndescs.toNat ≤ vq.vring.num) :
    usedCounter (packedAdvanceUsed vq ndescs) =
      (usedCounter vq).advance vq.vring.num ndescs.toNat := by
  obtain ⟨sum, wrapped⟩ := index_advance numSmall inside short
  by_cases wraps : vq.vring.num ≤ vq.usedIdx.toNat + ndescs.toNat
  · grind [packedAdvanceUsed, usedCounter, LapCounter.advance]
  · simp only [packedAdvanceUsed, sum, if_neg wraps, usedCounter, LapCounter.advance]
    exact (if_neg wraps).symm

theorem availCounter_rewind (inside : vq.lastAvailIdx.toNat < vq.vring.num)
    (short : ndescs.toNat ≤ vq.vring.num) :
    availCounter (virtqueuePackedRewind vq ndescs) =
      (availCounter vq).retreat vq.vring.num ndescs.toNat := by
  unfold virtqueueMaxSize at numSmall
  by_cases wraps : vq.lastAvailIdx.toNat < ndescs.toNat
  · have sum : (UInt32.ofNat vq.vring.num + vq.lastAvailIdx.toUInt32).toNat =
        vq.vring.num + vq.lastAvailIdx.toNat := by
      rw [UInt32.toNat_add, UInt32.toNat_ofNat', UInt16.toNat_toUInt32]
      omega
    have difference : (UInt32.ofNat vq.vring.num + vq.lastAvailIdx.toUInt32 - ndescs).toNat =
        vq.vring.num + vq.lastAvailIdx.toNat - ndescs.toNat := by
      rw [UInt32.toNat_sub_of_le _ _ (UInt32.le_iff_toNat_le.mpr (by omega)), sum]
    have small : vq.vring.num + vq.lastAvailIdx.toNat - ndescs.toNat < 2 ^ 16 := by omega
    simp only [virtqueuePackedRewind, if_pos wraps, availCounter, LapCounter.retreat,
      UInt32.toNat_toUInt16, difference, Nat.mod_eq_of_lt small]
    exact (if_pos wraps).symm
  · have low : ndescs.toUInt16.toNat = ndescs.toNat := by
      rw [UInt32.toNat_toUInt16]
      omega
    have difference : (vq.lastAvailIdx - ndescs.toUInt16).toNat =
        vq.lastAvailIdx.toNat - ndescs.toNat := by
      rw [UInt16.toNat_sub_of_le _ _ (UInt16.le_iff_toNat_le.mpr (by omega)), low]
    simp only [virtqueuePackedRewind, if_neg wraps, availCounter, LapCounter.retreat, difference]
    exact (if_neg wraps).symm

end Counters

/-! ### Frames -/

theorem packedAdvanceAvail_frame (vq : VirtQueue) (ndescs : UInt32) :
    ∃ idx wrap, packedAdvanceAvail vq ndescs =
      { vq with lastAvailIdx := idx, lastAvailWrapCounter := wrap } := by
  simp only [packedAdvanceAvail]
  split <;> exact ⟨_, _, rfl⟩

theorem packedTake_frame (vq : VirtQueue) (ndescs : UInt32) :
    ∃ idx wrap, packedTake vq ndescs =
      { vq with
        lastAvailIdx := idx
        lastAvailWrapCounter := wrap
        shadowAvailIdx := idx
        shadowAvailWrapCounter := wrap
        inuse := vq.inuse + ndescs } := by
  obtain ⟨idx, wrap, framed⟩ := packedAdvanceAvail_frame vq ndescs
  rw [packedTake, framed]
  exact ⟨idx, wrap, rfl⟩

theorem packedAdvanceUsed_frame (vq : VirtQueue) (ndescs : UInt32) :
    ∃ idx wrap valid, packedAdvanceUsed vq ndescs =
      { vq with usedIdx := idx, usedWrapCounter := wrap, signalledUsedValid := valid } := by
  simp only [packedAdvanceUsed]
  split <;> exact ⟨_, _, _, rfl⟩

theorem virtqueuePackedRewind_frame (vq : VirtQueue) (num : UInt32) :
    ∃ idx wrap, virtqueuePackedRewind vq num =
      { vq with lastAvailIdx := idx, lastAvailWrapCounter := wrap } := by
  unfold virtqueuePackedRewind
  split <;> exact ⟨_, _, rfl⟩

/-! ### Flushing a batch -/

def ndescsOf (elems : List VirtQueueElement) : Nat :=
  (elems.map fun elem => elem.ndescs.toNat).sum

/-- `used_elems`, from `start` on, tells the lengths of the elements filled. -/
def Stored (vq : VirtQueue) (start : Nat) (elems : List VirtQueueElement) : Prop :=
  ∀ (place : Nat) (elem : VirtQueueElement), elems[place]? = some elem →
    ∃ entry, vq.usedElems[start + place]? = some entry ∧ entry.ndescs = elem.ndescs

theorem Stored.snoc {elem entry : VirtQueueElement} (stored : Stored vq 0 elems)
    (inside : elems.length < vq.usedElems.length) (same : entry.ndescs = elem.ndescs) :
    Stored { vq with usedElems := vq.usedElems.set elems.length entry } 0 (elems ++ [elem]) := by
  intro index other member
  rw [Nat.zero_add]
  rcases Nat.lt_trichotomy index elems.length with before | rfl | behind
  · rw [List.getElem?_append_left before] at member
    obtain ⟨found, at_, length⟩ := stored index other member
    rw [Nat.zero_add] at at_
    refine ⟨found, ?_, length⟩
    rw [List.getElem?_set_ne (Nat.ne_of_gt before)]
    exact at_
  · grind
  · grind

theorem virtqueuePackedFillDesc_frame (vq : VirtQueue) (elem : VirtQueueElement) (idx : UInt32) :
    ∃ descRing, virtqueuePackedFillDesc vq elem idx = { vq with descRing } := by
  grind [VirtQueue, virtqueuePackedFillDesc]

/-- The loop of a flush adds up the lengths and writes used descriptors only. -/
theorem packedFlushRest_done {start : Nat} {total : UInt32} (stored : Stored vq start elems)
    (small : ndescs.toNat + ndescsOf elems < 2 ^ 32)
    (done : packedFlushRest elems.length start ndescs vq = .ok (total, after)) :
    total.toNat = ndescs.toNat + ndescsOf elems ∧ ∃ descRing, after = { vq with descRing } := by
  induction elems generalizing start ndescs vq with
  | nil =>
    cases done
    exact ⟨rfl, _, rfl⟩
  | cons elem rest ih =>
    obtain ⟨entry, present, same⟩ := stored 0 elem rfl
    rw [Nat.add_zero] at present
    rw [List.length_cons, packedFlushRest, readAt_of_getElem? present, bind_ok, same] at done
    obtain ⟨descRing, framed⟩ := virtqueuePackedFillDesc_frame vq entry ndescs
    rw [framed] at done
    have split : ndescsOf (elem :: rest) = elem.ndescs.toNat + ndescsOf rest := List.sum_cons
    have grown : (ndescs + elem.ndescs).toNat = ndescs.toNat + elem.ndescs.toNat := by
      rw [UInt32.toNat_add]
      omega
    have restStored : Stored { vq with descRing } (start + 1) rest := by
      intro place other member
      obtain ⟨entry, present, same⟩ := stored (place + 1) other member
      exact ⟨entry, by rw [Nat.add_assoc, Nat.add_comm 1]; exact present, same⟩
    obtain ⟨sum, lastRing, result⟩ := ih restStored (by omega) done
    exact ⟨by omega, lastRing, result⟩

/-- A flush of as many elements as are filled, one at least, moves `used_idx` by the
descriptors they consumed and takes these out of `inuse`. -/
theorem virtqueuePackedFlush_done (some : elems ≠ []) (ring : vq.vring.desc ≠ 0)
    (stored : Stored vq 0 elems) (few : elems.length < 2 ^ 32) (small : ndescsOf elems < 2 ^ 32)
    (done : virtqueuePackedFlush vq (UInt32.ofNat elems.length) = .ok after) :
    ∃ (total : UInt32) (descRing : List (Option VRingPackedDesc)), total.toNat = ndescsOf elems ∧
      after = packedAdvanceUsed { vq with descRing, inuse := vq.inuse - total } total := by
  obtain ⟨first, rest, rfl⟩ := List.exists_cons_of_ne_nil some
  obtain ⟨entry, present, same⟩ := stored 0 first rfl
  have split : ndescsOf (first :: rest) = first.ndescs.toNat + ndescsOf rest := List.sum_cons
  have turns : (UInt32.ofNat (first :: rest).length).toNat - 1 = rest.length := by
    rw [List.length_cons] at few ⊢
    rw [UInt32.toNat_ofNat']
    omega
  rw [virtqueuePackedFlush, if_neg ring, readAt_of_getElem? present, bind_ok, turns, same] at done
  obtain ⟨⟨total, middle⟩, flushing, finishing⟩ := bind_eq_ok.mp done
  have restStored : Stored vq 1 rest := by
    intro place other member
    obtain ⟨entry, present, same⟩ := stored (place + 1) other member
    exact ⟨entry, by rw [Nat.add_comm 1]; simpa using present, same⟩
  obtain ⟨sum, restRing, rfl⟩ := packedFlushRest_done restStored (by omega) flushing
  obtain ⟨descRing, framed⟩ :=
    virtqueuePackedFillDesc_frame { vq with descRing := restRing } entry 0
  dsimp only at finishing
  rw [framed] at finishing
  cases finishing
  exact ⟨total, descRing, by omega, rfl⟩

end QemuGzvm.Virtio
