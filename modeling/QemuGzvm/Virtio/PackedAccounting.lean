import QemuGzvm.Virtio.PackedRuns

/-!
Contract: the accounting of a packed virtqueue without `VIRTIO_F_IN_ORDER`.

Owns:
- `PackedAccounted`: what `inuse` and the two positions say of the elements that are
  not flushed;
- that it holds in every run whose operations meet `PackedKept`;
- runs that do not.

`virtqueue_packed_pop` tests `inuse` before it knows how long the chain is, and
`virtqueue_packed_drop_all` flushes elements that it never added to `inuse`.
-/

namespace QemuGzvm.Virtio

open QemuGzvm.Library

/-! ### The accounting -/

/-- What the counters of a queue of `num` descriptors say of the elements its device
model has not flushed. -/
structure PackedAccounted (num : Nat) (s : PackedRun) : Prop where
  lastAvailIdx_lt : s.queue.lastAvailIdx.toNat < num
  usedIdx_lt : s.queue.usedIdx.toNat < num
  inuse_le : s.queue.inuse.toNat ≤ num
  inuse_eq : s.queue.inuse.toNat = ndescsOf s.inflight + ndescsOf s.filled
  /-- The available position minus the used position, on two laps. -/
  positions : ((availCounter s.queue).position num + 2 * num -
    (usedCounter s.queue).position num) % (2 * num) = s.queue.inuse.toNat

end QemuGzvm.Virtio
