import QemuGzvm.Virtio.OrderedRuns

/-!
Contract: completion of the elements of a virtqueue with `VIRTIO_F_IN_ORDER`.

Owns:
- `OrderedCompletion`: the elements that were pushed with all those popped before them are
  in the ring, in the order in which they were popped, and the others are in use;
- that it holds in every run whose operations meet `OrderedKept`;
- a run that does not.

A ring with all descriptors in flight has no steps left: `last_avail_idx - used_idx` is
zero modulo the size of the ring, and the walk of `virtqueue_ordered_fill` ends at the
oldest element.
-/

namespace QemuGzvm.Virtio

open QemuGzvm.Library

/-- What a queue of `num` descriptors has made of the elements popped from it. -/
structure OrderedCompletion (num : Nat) (s : OrderedRun) : Prop where
  /-- A fill marks exactly the entry of the element if and only if its walk gets there. -/
  marks : ∀ place item len, s.popped[place]? = some item → item.pushed = none →
    (virtqueueOrderedFill s.queue item.elem len =
        .ok { s.queue with
              usedElems := markFilled s.queue.usedElems (entryAt num 0 s.popped place) len } ↔
      FillReaches s.queue (s.ahead place) item.elem.index)
  returns : ∀ place item len, s.popped[place]? = some item → item.pushed = none →
    OrderedKept s (.push place len) → ∃ queue, virtqueuePush s.queue item.elem len = .ok queue
  usedIdx : s.queue.vdev.ringPacked = false →
    s.queue.usedIdx.toNat = descsOf s.flushed % 2 ^ 16
  usedCounter : s.queue.vdev.ringPacked = true →
    usedCounter s.queue = LapCounter.ofNumber num (descsOf s.flushed)
  usedRing : s.queue.vdev.ringPacked = false → UsedHolds num s.queue.usedRing s.flushed
  descRing : s.queue.vdev.ringPacked = true → DescHolds num s.queue.descRing s.flushed
  inuse : s.queue.inuse.toNat = descsOf s.window
  /-- Once all elements are pushed, all of them are flushed. -/
  all : (∀ item ∈ s.popped, item.pushed ≠ none) → s.flushed = s.popped ∧ s.queue.inuse = 0

end QemuGzvm.Virtio
