import QemuGzvm.Virtio.ArrayBounds
import QemuGzvm.Virtio.PackedRuns

/-!
Contract: the runs of a virtqueue whose size the guest changes, and the bounds of its
array `used_elems`.

Owns:
- `virtio_add_queue` and `virtio_queue_set_num`;
- `QueueOp`, the operations of guest and device model on a queue of either layout, with
  or without `VIRTIO_F_IN_ORDER`;
- `BoundsKept`, the condition on operations under which no call leaves `used_elems`;
- `BoundsInv`, which every operation that meets it keeps whatever the guest writes.

A packed queue without `VIRTIO_F_IN_ORDER` uses the array from its start, one entry for
each element filled. A queue with it uses the array as a ring: a split queue needs of it
only that no entry is longer than one descriptor, a packed one that it carries the
elements in flight.
-/

namespace QemuGzvm.Virtio

open QemuGzvm.Library

/-! ### The size of a queue -/

/-- `virtio_add_queue`, which aborts if the size is too large. The ring addresses of
`vring` are those the guest sets up. -/
def virtioAddQueue (vdev : VirtIODevice) (vring : VRing) (queueSize : Nat) : Checked VirtQueue :=
  if virtqueueMaxSize < queueSize then .error .assertion
  else
    .ok
      { vdev
        vring := { vring with num := queueSize }
        usedElems := List.replicate queueSize {} }

def virtioQueueSetNum (vq : VirtQueue) (num : Int) : VirtQueue :=
  if decide (num ≠ 0) ≠ decide (vq.vring.num ≠ 0) ∨ virtqueueMaxSize < num ∨ num < 0 then vq
  else { vq with vring := { vq.vring with num := num.toNat } }

/-- A size that is accepted changes nothing else, and a queue stays existent or not. -/
theorem virtioQueueSetNum_cases (vq : VirtQueue) (num : Int) :
    ∃ size, virtioQueueSetNum vq num = { vq with vring := { vq.vring with num := size } } ∧
      (size = 0 ↔ vq.vring.num = 0) := by
  unfold virtioQueueSetNum
  split
  · exact ⟨vq.vring.num, rfl, Iff.rfl⟩
  next accepted =>
    push Not at accepted
    obtain ⟨same, -, positive⟩ := accepted
    refine ⟨num.toNat, rfl, ?_⟩
    rw [decide_eq_decide] at same
    omega

/-! ### Runs -/

structure QueueConfig where
  vdev : VirtIODevice
  vring : VRing
  queueSize : Nat
  queue : VirtQueue
  added : virtioAddQueue vdev vring queueSize = .ok queue

inductive QueueOp where
  | setNum (num : Int)
  | pop (guest : Guest)
  | fill (position : Nat) (len : UInt32)
  | flush

def QueueOp.next (s : PackedRun) : QueueOp → Option PackedRun
  | .setNum num => some { s with queue := virtioQueueSetNum s.queue num }
  | .pop guest => s.next (.pop guest)
  | .fill position len => s.next (.fill position len)
  | .flush => s.next .flush

def queueSystem (config : QueueConfig) : LabelledSystem PackedRun QueueOp :=
  .ofNext { queue := config.queue } QueueOp.next

/-- The call that an operation makes leaves an array. -/
def LeavesArray (s : PackedRun) : QueueOp → Prop
  | .setNum _ => False
  | .pop guest => virtqueuePop guest s.queue = .error .outOfBounds
  | .fill position len =>
    ∃ elem ∈ s.inflight[position]?,
      virtqueueFill s.queue elem len (UInt32.ofNat s.filled.length) = .error .outOfBounds
  | .flush => virtqueueFlush s.queue (UInt32.ofNat s.filled.length) = .error .outOfBounds

instance (s : PackedRun) (op : QueueOp) : Decidable (LeavesArray s op) :=
  match op with
  | .setNum _ => inferInstanceAs (Decidable False)
  | .pop _ => inferInstanceAs (Decidable (_ = _))
  | .fill _ _ => inferInstanceAs (Decidable (∃ _ ∈ _, _))
  | .flush => inferInstanceAs (Decidable (_ = _))

/-- The condition on an operation. The guest writes no size larger than the one the queue
was created with, and changes the size of a packed in-order queue only while nothing is in
flight and to one that `last_avail_idx` is below. An element popped from a packed in-order
queue fits beside the descriptors in use. The walk of an in-order fill stays inside the
array. And a flush is one of a queue that exists, with something to flush if the queue is
packed and not in-order. -/
def BoundsKept (s : PackedRun) : QueueOp → Prop
  | .setNum num =>
    (virtioQueueSetNum s.queue num).vring.num ≤ s.queue.usedElems.length ∧
    (s.queue.vdev.inOrder = true → s.queue.vdev.ringPacked = true →
      (virtioQueueSetNum s.queue num).vring.num ≠ s.queue.vring.num →
        s.queue.inuse = 0 ∧
        s.queue.lastAvailIdx.toNat < (virtioQueueSetNum s.queue num).vring.num)
  | .pop guest =>
    s.queue.vdev.inOrder = true → s.queue.vdev.ringPacked = true →
      s.queue.inuse.toNat + ndescsPopped guest s.queue ≤ s.queue.vring.num
  | .fill position _ =>
    s.queue.vdev.inOrder = true → ∀ elem ∈ s.inflight[position]?,
      walkInside s.queue.vring.num s.queue.usedElems elem.index s.queue.usedElems.length
        (s.queue.usedIdx.toNat % s.queue.vring.num) = true
  | .flush =>
    s.queue.vring.num ≠ 0 ∧
    (s.queue.vdev.inOrder = false → s.queue.vdev.ringPacked = true → s.filled ≠ [])

instance (s : PackedRun) (op : QueueOp) : Decidable (BoundsKept s op) :=
  match op with
  | .setNum _ => inferInstanceAs (Decidable (_ ∧ _))
  | .pop _ => inferInstanceAs (Decidable (_ → _))
  | .fill _ _ => inferInstanceAs (Decidable (_ → _))
  | .flush => inferInstanceAs (Decidable (_ ∧ _))

/-! ### The invariant -/

structure PlainPacked (s : PackedRun) : Prop where
  idle : s.queue.vring.desc = 0 → s.inflight = [] ∧ s.filled = []
  inuse : s.queue.inuse.toNat = ndescsOf s.inflight + ndescsOf s.filled
  stored : Stored s.queue 0 s.filled
  positive : ∀ elem ∈ s.inflight ++ s.filled, 0 < elem.ndescs.toNat
  count : s.inflight.length + s.filled.length ≤ s.queue.usedElems.length

/-- The elements of a window with an index that are not filled. -/
def waitingCount (window : List OrderedElem) (index : UInt32) : Nat :=
  window.countP fun item => item.pushed.isNone && item.elem.index == index

/-- The elements that a device model holds and that have an index. -/
def heldCount (inflight : List VirtQueueElement) (index : UInt32) : Nat :=
  inflight.countP fun elem => elem.index == index

/-- A packed queue with `VIRTIO_F_IN_ORDER`. The guest may use an index twice, so that a
fill may mark another element than the one it was called for, but one with its index. -/
structure WindowPacked (s : PackedRun) (base : Nat) (window : List OrderedElem) : Prop where
  inFlight : InFlight s.queue.vring.num s.queue.usedElems base window
  used : usedCounter s.queue = LapCounter.ofNumber s.queue.vring.num base
  avail : availCounter s.queue = LapCounter.ofNumber s.queue.vring.num (base + descsOf window)
  inuse : s.queue.inuse.toNat = descsOf window
  waiting : ∀ index, heldCount s.inflight index ≤ waitingCount window index

/-- What holds of a run as long as the device is not disabled. -/
structure BoundsInv (size : Nat) (s : PackedRun) : Prop where
  length : s.queue.usedElems.length = size
  small : size ≤ virtqueueMaxSize
  covers : s.queue.vring.num ≤ size
  empty : s.queue.vring.num = 0 → s.inflight = [] ∧ s.filled = []
  plain : s.queue.vdev.inOrder = false → s.queue.vdev.ringPacked = true → PlainPacked s
  single : s.queue.vdev.inOrder = true → s.queue.vdev.ringPacked = false →
    ∀ entry ∈ s.queue.usedElems, entry.ndescs.toNat ≤ 1
  window : s.queue.vdev.inOrder = true → s.queue.vdev.ringPacked = true →
    0 < s.queue.vring.num → ∃ base window, WindowPacked s base window

theorem boundsInv_added (config : QueueConfig) :
    BoundsInv config.queueSize { queue := config.queue } := by
  obtain ⟨vdev, vring, queueSize, queue, added⟩ := config
  unfold virtioAddQueue at added
  split at added
  · cases added
  next small =>
    cases added
    have blank : ∀ entry ∈ List.replicate queueSize ({} : VirtQueueElement), entry = {} :=
      fun entry member => List.eq_of_mem_replicate member
    refine ⟨List.length_replicate, Nat.le_of_not_lt small, Nat.le_refl _, fun _ => ⟨rfl, rfl⟩,
      fun _ _ => ⟨fun _ => ⟨rfl, rfl⟩, rfl, nofun, nofun, Nat.zero_le _⟩,
      fun _ _ entry member => ?_,
      fun _ _ numPos => ⟨0, [], ?_, ?_, ?_, rfl, fun _ => Nat.zero_le _⟩⟩
    · rw [blank entry member]
      exact Nat.zero_le _
    · apply RingWindow.Laid.nil
      intro entry member
      rw [blank entry member]
    · simp [usedCounter, LapCounter.ofNumber]
    · simp [availCounter, LapCounter.ofNumber]

variable {size : Nat} {s : PackedRun}

/-- What every call leaves as it is: the size of the array, the ring and the device. -/
structure SameShape (vq after : VirtQueue) : Prop where
  length : after.usedElems.length = vq.usedElems.length
  vring : after.vring = vq.vring
  vdev : after.vdev = vq.vdev

variable {t : PackedRun} {elem : VirtQueueElement} {guest : Guest} {queue : VirtQueue} {base : Nat}
  {window : List OrderedElem}

section

variable (inv : BoundsInv size s) (same : SameShape s.queue t.queue)
  (nonzero : s.queue.vring.num ≠ 0)
include inv same nonzero

theorem BoundsInv.step_plainSplit (unordered : s.queue.vdev.inOrder = false)
    (split : s.queue.vdev.ringPacked = false) : BoundsInv size t := by
  grind [BoundsInv, SameShape]

theorem BoundsInv.step_plainPacked (unordered : s.queue.vdev.inOrder = false)
    (plain : PlainPacked t) : BoundsInv size t := by
  grind [BoundsInv, SameShape]

theorem BoundsInv.step_ordered
    (ordered : s.queue.vdev.inOrder = true)
    (single : s.queue.vdev.ringPacked = false →
      ∀ entry ∈ t.queue.usedElems, entry.ndescs.toNat ≤ 1)
    (window : s.queue.vdev.ringPacked = true → ∃ base window, WindowPacked t base window) :
    BoundsInv size t := by
  grind [BoundsInv, SameShape]

end

/-! ### Size -/

/-- A packed in-order queue with nothing in flight can have any size that
`last_avail_idx` is below. -/
theorem WindowPacked.resize (carries : WindowPacked s base window) (nothing : s.queue.inuse = 0)
    {num : Nat} (inside : s.queue.lastAvailIdx.toNat < num) :
    ∃ base window, WindowPacked
      { s with queue := { s.queue with vring := { s.queue.vring with num } } } base window := by
  have noDescs : descsOf window = 0 := by
    rw [← carries.inuse, nothing]
    rfl
  have few : window.length ≤ descsOf window :=
    RingWindow.length_le_extent carries.inFlight.positive
  obtain rfl : window = [] := List.length_eq_zero_iff.mp (by omega)
  have same : usedCounter s.queue = availCounter s.queue := carries.used.trans carries.avail.symm
  have at_ : LapCounter.ofNumber num ((availCounter s.queue).position num) = _ :=
    LapCounter.ofNumber_position inside
  refine ⟨(availCounter s.queue).position num, [], ?_, ?_, ?_, carries.inuse, carries.waiting⟩
  · apply RingWindow.Laid.nil
    intro entry member
    obtain ⟨i, atPlace⟩ := List.mem_iff_getElem?.mp member
    exact carries.inFlight.other i entry atPlace nofun
  · exact same.trans at_.symm
  · exact at_.symm

section

variable (inv : BoundsInv size s)
include inv

theorem BoundsInv.setNum {num : Int} (kept : BoundsKept s (.setNum num)) :
    BoundsInv size { s with queue := virtioQueueSetNum s.queue num } := by
  obtain ⟨covers, carried⟩ := kept
  obtain ⟨new, changed, exists_⟩ := virtioQueueSetNum_cases s.queue num
  rw [changed] at covers carried ⊢
  rw [inv.length] at covers
  refine ⟨inv.length, inv.small, covers, fun none => inv.empty (exists_.mp none),
    fun unordered packed => ?_, inv.single, fun ordered packed numPos => ?_⟩
  · have plain := inv.plain unordered packed
    exact ⟨plain.idle, plain.inuse, plain.stored, plain.positive, plain.count⟩
  · have oldPos : 0 < s.queue.vring.num := by
      change 0 < new at numPos
      omega
    obtain ⟨base, window, carries⟩ := inv.window ordered packed oldPos
    by_cases same : new = s.queue.vring.num
    · subst same
      exact ⟨base, window, carries.inFlight, carries.used, carries.avail, carries.inuse,
        carries.waiting⟩
    · obtain ⟨nothing, inside⟩ := carried ordered packed same
      exact carries.resize nothing inside

/-! ### Pops -/

theorem BoundsInv.recordIndex_lt (ordered : s.queue.vdev.inOrder = true)
    (numPos : 0 < s.queue.vring.num) : recordIndex s.queue < s.queue.usedElems.length := by
  rw [inv.length]
  refine Nat.lt_of_lt_of_le ?_ inv.covers
  unfold recordIndex
  split
  next packed =>
    obtain ⟨base, window, carries⟩ := inv.window ordered packed numPos
    have position : s.queue.lastAvailIdx.toNat = (base + descsOf window) % s.queue.vring.num :=
      congrArg LapCounter.index carries.avail
    rw [position]
    exact Nat.mod_lt _ numPos
  · exact Nat.mod_lt _ numPos

theorem BoundsInv.pop_inside (guest : Guest) :
    Inside (fun _ => True) (virtqueuePop guest s.queue) := by
  rcases Nat.lt_or_ge s.queue.inuse.toNat s.queue.vring.num with room | full
  · exact virtqueuePop_inside guest fun ordered =>
      inv.recordIndex_lt ordered (Nat.zero_lt_of_lt room)
  · exact virtqueuePop_full guest full

theorem BoundsInv.shadow (shadow : UInt16) :
    BoundsInv size { s with queue := { s.queue with shadowAvailIdx := shadow } } := by
  refine ⟨inv.length, inv.small, inv.covers, inv.empty, fun unordered packed => ?_, inv.single,
    fun ordered packed numPos => ?_⟩
  · have plain := inv.plain unordered packed
    exact ⟨plain.idle, plain.inuse, plain.stored, plain.positive, plain.count⟩
  · obtain ⟨base, window, carries⟩ := inv.window ordered packed numPos
    exact ⟨base, window, carries.inFlight, carries.used, carries.avail, carries.inuse,
      carries.waiting⟩

end

theorem PlainPacked.take (plain : PlainPacked s)
    (covers : s.queue.vring.num ≤ s.queue.usedElems.length)
    (small : s.queue.usedElems.length ≤ virtqueueMaxSize) (ring : s.queue.vring.desc ≠ 0)
    (room : s.queue.inuse.toNat < s.queue.vring.num) (positive : 0 < elem.ndescs.toNat)
    (bounded : elem.ndescs.toNat ≤ s.queue.vring.num) :
    PlainPacked
      { s with queue := packedTake s.queue elem.ndescs, inflight := elem :: s.inflight } := by
  unfold virtqueueMaxSize at small
  have grown : (s.queue.inuse + elem.ndescs).toNat =
      s.queue.inuse.toNat + elem.ndescs.toNat := by
    rw [UInt32.toNat_add]
    omega
  have all := plain.inuse
  have held := length_le_ndescsOf fun elem member =>
    plain.positive elem (List.mem_append_left _ member)
  have filled := length_le_ndescsOf fun elem member =>
    plain.positive elem (List.mem_append_right _ member)
  obtain ⟨idx, wrap, framed⟩ := packedTake_frame s.queue elem.ndescs
  rw [framed]
  refine ⟨fun missing => (ring missing).elim, ?_, plain.stored, ?_, ?_⟩
  · grind [ndescsOf_cons]
  · grind [PlainPacked]
  · grind

theorem WindowPacked.take (carries : WindowPacked s base window) {old : VirtQueueElement}
    (shadow : UInt16) (packed : s.queue.vdev.ringPacked = true)
    (covers : s.queue.vring.num ≤ s.queue.usedElems.length)
    (small : s.queue.usedElems.length ≤ virtqueueMaxSize)
    (fits : s.queue.inuse.toNat + elem.ndescs.toNat ≤ s.queue.vring.num)
    (positive : 0 < elem.ndescs.toNat)
    (present : s.queue.usedElems[recordIndex s.queue]? = some old) :
    WindowPacked
      { s with queue := orderedTake s.queue old elem shadow, inflight := elem :: s.inflight }
      base (window ++ [⟨elem, none⟩]) := by
  have held := carries.inuse
  have numPos : 0 < s.queue.vring.num := by omega
  have position : recordIndex s.queue = (base + descsOf window) % s.queue.vring.num := by
    rw [recordIndex, if_pos packed]
    exact congrArg LapCounter.index carries.avail
  have grown : descsOf (window ++ [⟨elem, none⟩]) = descsOf window + elem.ndescs.toNat :=
    RingWindow.extent_concat window ⟨elem, none⟩
  have inuseGrown : (s.queue.inuse + elem.ndescs).toNat =
      s.queue.inuse.toNat + elem.ndescs.toNat := by
    unfold virtqueueMaxSize at small
    rw [UInt32.toNat_add]
    omega
  have avail := orderedTake_availCounter old elem shadow packed numPos (covers.trans small)
    carries.avail (by omega)
  obtain ⟨idx, wrap, newShadow, shadowWrap, framed⟩ := orderedTake_frame s.queue old shadow
    (fun split => by rw [packed] at split; cases split)
  rw [framed] at avail ⊢
  rw [position] at present ⊢
  refine ⟨?_, carries.used, ?_, ?_, ?_⟩
  · exact inFlight_record carries.inFlight positive (held ▸ fits) covers present
  · rw [grown, ← Nat.add_assoc]
    exact avail
  · rw [grown, ← held]
    exact inuseGrown
  · intro index
    have before := carries.waiting index
    unfold heldCount waitingCount at before ⊢
    rw [List.countP_append, List.countP_cons, List.countP_singleton]
    simp only [Option.isNone_none, Bool.true_and]
    omega

theorem BoundsInv.pop_plain (inv : BoundsInv size s) (unordered : s.queue.vdev.inOrder = false)
    (popped : virtqueuePop guest s.queue = .ok (some elem, queue)) :
    BoundsInv size { s with queue, inflight := elem :: s.inflight } := by
  cases layout : s.queue.vdev.ringPacked with
  | false =>
    rcases virtqueuePop_splitPopped unordered layout popped with
      _ | _ | ⟨shadow, -, -, room, -, -⟩
    exact inv.step_plainSplit ⟨rfl, rfl, rfl⟩ (Nat.ne_zero_of_lt room) unordered layout
  | true =>
    have numSmall := inv.covers.trans inv.small
    obtain ⟨outcome, -⟩ := virtqueuePop_packedPopped unordered layout numSmall popped
    rcases outcome with _ | _ | ⟨ring, room, positive, bounded⟩
    have taken := (inv.plain unordered layout).take (inv.length.symm ▸ inv.covers)
      (inv.length.symm ▸ inv.small) ring room positive bounded
    obtain ⟨idx, wrap, framed⟩ := packedTake_frame s.queue elem.ndescs
    rw [framed] at taken ⊢
    exact inv.step_plainPacked ⟨rfl, rfl, rfl⟩ (Nat.ne_zero_of_lt room) unordered taken

theorem BoundsInv.pop_ordered (inv : BoundsInv size s) (ordered : s.queue.vdev.inOrder = true)
    (fits : s.queue.vdev.ringPacked = true →
      s.queue.inuse.toNat + elem.ndescs.toNat ≤ s.queue.vring.num)
    (popped : virtqueuePop guest s.queue = .ok (some elem, queue)) :
    BoundsInv size { s with queue, inflight := elem :: s.inflight } := by
  have numSmall := inv.covers.trans inv.small
  rcases virtqueuePop_ordered ordered numSmall popped with
    _ | _ | ⟨shadow, -, -, -, room, positive, -, single, present⟩
  have taken := fun packed base window (carries : WindowPacked s base window) =>
    carries.take shadow packed (inv.length.symm ▸ inv.covers) (inv.length.symm ▸ inv.small)
      (fits packed) positive present
  obtain ⟨idx, wrap, newShadow, shadowWrap, framed⟩ := orderedTake_frame s.queue _ shadow single
  rw [framed] at taken ⊢
  refine inv.step_ordered ⟨List.length_set, rfl, rfl⟩ (Nat.ne_zero_of_lt room) ordered
    (fun split entry member => ?_) (fun packed => ?_)
  · rcases List.mem_or_eq_of_mem_set member with before | rfl
    · exact inv.single ordered split entry before
    · rw [recordEntry, single split]
      exact Nat.le_refl _
  · obtain ⟨base, window, carries⟩ := inv.window ordered packed (Nat.zero_lt_of_lt room)
    exact ⟨base, _, taken packed base window carries⟩

theorem BoundsInv.pop_none (inv : BoundsInv size s)
    (popped : virtqueuePop guest s.queue = .ok (none, queue)) :
    queue.vdev.broken = true ∨ BoundsInv size { s with queue } := by
  have numSmall := inv.covers.trans inv.small
  cases order : s.queue.vdev.inOrder with
  | true =>
    rcases virtqueuePop_ordered order numSmall popped with shadow | broken
    · exact .inr (inv.shadow shadow)
    · exact .inl broken
  | false =>
    cases layout : s.queue.vdev.ringPacked with
    | false =>
      rcases virtqueuePop_splitPopped order layout popped with ⟨shadow, -⟩ | broken
      · exact .inr (inv.shadow shadow)
      · exact .inl broken
    | true =>
      obtain ⟨outcome, -⟩ := virtqueuePop_packedPopped order layout numSmall popped
      rcases outcome with _ | broken
      · exact .inr inv
      · exact .inl broken

end QemuGzvm.Virtio
