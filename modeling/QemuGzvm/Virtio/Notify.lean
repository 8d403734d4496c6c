import QemuGzvm.Library.Transition
import QemuGzvm.Virtio.PackedCounters

/-!
Contract: whether the guest is notified of completed elements.

Owns:
- `virtio_should_notify` for both layouts, with `vring_need_event` and
  `vring_packed_need_event`;
- the runs of flushes and of these tests with `VIRTIO_RING_F_EVENT_IDX`, in which the
  entries completed since reset are numbered;
- what `signalled_used` stands for while it is valid, and that no entry the guest
  waits for is passed over.
-/

namespace QemuGzvm.Virtio

open QemuGzvm.Library

/-! ### The test -/

def vringNeedEvent (eventIdx newIdx old : UInt16) : Bool :=
  decide (newIdx - eventIdx - 1 < newIdx - old)

def vringAvailFlags (guest : Guest) (vq : VirtQueue) : UInt16 :=
  match vq.vring.caches with
  | none => 0
  | some _ => guest.availFlags

def vringGetUsedEvent (guest : Guest) (vq : VirtQueue) : UInt16 :=
  vringAvailRing guest vq vq.vring.num

/-- The index of the last notification becomes `used_idx`. -/
def noteSignalled (vq : VirtQueue) : VirtQueue :=
  { vq with signalledUsed := vq.usedIdx, signalledUsedValid := true }

def virtioSplitShouldNotify (guest : Guest) (vq : VirtQueue) : Bool × VirtQueue :=
  let (empty, vq) :=
    if vq.vdev.notifyOnEmpty && vq.inuse == 0 then virtioQueueSplitEmpty guest vq
    else (false, vq)
  if empty then (true, vq)
  else if !vq.vdev.eventIdx then
    -- `VRING_AVAIL_F_NO_INTERRUPT`
    (vringAvailFlags guest vq &&& 1 == 0, vq)
  else
    (!vq.signalledUsedValid ||
      vringNeedEvent (vringGetUsedEvent guest vq) vq.usedIdx vq.signalledUsed, noteSignalled vq)

/-- The offset may become negative in C; what is passed on are its lower 16 bits. -/
def vringPackedNeedEvent (num : Nat) (wrap : Bool) (offWrap new old : UInt16) : Bool :=
  let off := offWrap &&& 0x7fff
  let off := if wrap != (offWrap >>> 15 != 0) then off - UInt16.ofNat num else off
  vringNeedEvent off new old

def packedEventFlagEnable : UInt16 := 0

def packedEventFlagDisable : UInt16 := 1

def packedEventFlagDesc : UInt16 := 2

def virtioPackedShouldNotify (guest : Guest) (vq : VirtQueue) : Bool × VirtQueue :=
  match vq.vring.caches with
  | none => (false, vq)
  | some _ =>
    (if guest.eventFlags = packedEventFlagDisable then false
      else if guest.eventFlags = packedEventFlagEnable then true
      else !vq.signalledUsedValid ||
        vringPackedNeedEvent vq.vring.num vq.usedWrapCounter guest.eventOffWrap vq.usedIdx
          vq.signalledUsed, noteSignalled vq)

def virtioShouldNotify (guest : Guest) (vq : VirtQueue) : Bool × VirtQueue :=
  if vq.vdev.ringPacked then virtioPackedShouldNotify guest vq
  else virtioSplitShouldNotify guest vq

/-! ### Runs -/

/-- A queue that completes elements and notifies by event index. -/
structure NotifyConfig where
  vring : VRing
  vdev : VirtIODevice
  num_pos : 0 < vring.num
  num_le : vring.num ≤ virtqueueMaxSize
  eventIdx : vdev.eventIdx = true
  unordered : vdev.inOrder = false
  enabled : virtioDeviceDisabled vdev = false
  mapped : vring.caches ≠ none
  descSet : vring.desc ≠ 0
  usedSet : vring.used ≠ 0

/-- A queue and the entries it has completed since reset: those of a split ring are
used elements, those of a packed ring are descriptors. -/
structure NotifyRun where
  queue : VirtQueue
  completed : Nat := 0
  noticed : Nat := 0

def NotifyConfig.reset (config : NotifyConfig) : NotifyRun :=
  { queue := { vdev := config.vdev, vring := config.vring, usedElems := [] } }

/-- `flush` finds in `used_elems` the elements it flushes, and others behind them. -/
inductive NotifyOp where
  | flush (elems others : List VirtQueueElement)
  | shouldNotify (guest : Guest)

/-- The elements a flush of a packed queue writes: it writes one even if it is told to
write none. -/
def packedFlushed : List VirtQueueElement → List VirtQueueElement → List VirtQueueElement
  | [], first :: _ => [first]
  | elems, _ => elems

def flushedEntries (vq : VirtQueue) (elems others : List VirtQueueElement) : Nat :=
  if vq.vdev.ringPacked then ndescsOf (packedFlushed elems others) else elems.length

def NotifyRun.next (run : NotifyRun) : NotifyOp → Option NotifyRun
  | .flush elems others =>
    (virtqueueFlush { run.queue with usedElems := elems ++ others }
      (UInt32.ofNat elems.length)).toOption.map fun queue =>
        { run with
          queue, completed := run.completed + flushedEntries run.queue elems others }
  | .shouldNotify guest =>
    some { run with
      queue := (virtioShouldNotify guest run.queue).2, noticed := run.completed }

def FlushFits (run : NotifyRun) : NotifyOp → Prop
  | .flush elems others =>
    elems.length ≤ run.queue.vring.num ∧
      flushedEntries run.queue elems others ≤ run.queue.vring.num
  | .shouldNotify _ => True

instance (run : NotifyRun) : (op : NotifyOp) → Decidable (FlushFits run op)
  | .flush _ _ => inferInstanceAs (Decidable (_ ∧ _))
  | .shouldNotify _ => .isTrue trivial

def NotifyConfig.system (config : NotifyConfig) : LabelledSystem NotifyRun NotifyOp :=
  .ofNext config.reset NotifyRun.next

/-- The guest waits for entry `number`: by `used_event`, or by the offset and the wrap
bit of `off_wrap`. The first lap of a packed ring has the wrap bit set. -/
def EventAt (guest : Guest) (vq : VirtQueue) (number : Nat) : Prop :=
  if vq.vdev.ringPacked then
    guest.eventFlags = packedEventFlagDesc ∧
      (guest.eventOffWrap &&& 0x7fff).toNat = number % vq.vring.num ∧
      (guest.eventOffWrap >>> 15 != 0) = decide (number / vq.vring.num % 2 = 0)
  else vringGetUsedEvent guest vq = UInt16.ofNat number

/-! ### A split queue -/

/-- `signalled_used` is the number of an entry that was next at the last test or before
it, and while it is valid, less than half of the 16-bit numbers lie behind it. -/
structure SplitSignalled (run : NotifyRun) : Prop where
  index : run.queue.usedIdx = UInt16.ofNat run.completed
  ordered : run.noticed ≤ run.completed
  signalled : run.queue.signalledUsedValid = true →
    ∃ number, number ≤ run.noticed ∧ run.completed - number < 2 ^ 15 ∧
      run.queue.signalledUsed = UInt16.ofNat number

theorem toNat_ofNat_sub {low high : Nat} (order : low ≤ high) (close : high - low < 2 ^ 16) :
    (UInt16.ofNat high - UInt16.ofNat low).toNat = high - low := by
  rw [← UInt16.ofNat_sub order, UInt16.toNat_ofNat']
  exact Nat.mod_eq_of_lt close

/-- An entry between the last notification and now is found. -/
theorem vringNeedEvent_of_mem {old event new : Nat} (from_old : old ≤ event)
    (before_new : event < new) (close : new - old < 2 ^ 16) :
    vringNeedEvent (UInt16.ofNat event) (UInt16.ofNat new) (UInt16.ofNat old) = true := by
  have behind : UInt16.ofNat new - UInt16.ofNat event - 1 = UInt16.ofNat (new - (event + 1)) := by
    rw [UInt16.ofNat_sub (show event + 1 ≤ new from before_new), UInt16.ofNat_add]
    grind
  rw [vringNeedEvent, decide_eq_true_eq, UInt16.lt_iff_toNat_lt, behind,
    toNat_ofNat_sub (by omega) close, UInt16.toNat_ofNat', Nat.mod_eq_of_lt (by omega)]
  omega

/-- The comparison in `virtqueue_split_flush` fails only while the distance to the last
notification fits in 15 bits. -/
theorem distance_lt_of_valid {signalled old count : Nat} (order : signalled ≤ old)
    (close : old - signalled < 2 ^ 15) (small : count ≤ virtqueueMaxSize)
    (valid : ¬ (UInt16.ofNat (old + count) - UInt16.ofNat signalled).toInt16.toInt <
      (UInt16.ofNat (old + count) - UInt16.ofNat old).toNat) :
    old + count - signalled < 2 ^ 15 := by
  unfold virtqueueMaxSize at small
  rw [toNat_ofNat_sub (by omega) (by omega), ← UInt16.ofNat_sub (by omega)] at valid
  by_contra far
  apply valid
  have negative : (UInt16.ofNat (old + count - signalled)).toInt16.toInt < 0 := by
    rw [UInt16.toInt16_ofNat', Int16.toInt_ofNat', Int16.size, Int.bmod]
    omega
  omega

/-- With `VIRTIO_RING_F_EVENT_IDX` the test notifies because the queue is empty, or
decides by the event index and notes that it did. -/
theorem virtioSplitShouldNotify_cases (guest : Guest) {vq : VirtQueue}
    (eventIdx : vq.vdev.eventIdx = true) : ∃ shadow,
    virtioSplitShouldNotify guest vq = (true, { vq with shadowAvailIdx := shadow }) ∨
    virtioSplitShouldNotify guest vq =
      (!vq.signalledUsedValid ||
        vringNeedEvent (vringGetUsedEvent guest vq) vq.usedIdx vq.signalledUsed,
        noteSignalled { vq with shadowAvailIdx := shadow }) := by
  have tested : ∃ empty shadow,
      (if vq.vdev.notifyOnEmpty && vq.inuse == 0 then virtioQueueSplitEmpty guest vq
        else (false, vq)) = (empty, { vq with shadowAvailIdx := shadow }) := by
    split
    · rcases virtioQueueEmptyRcu_cases guest vq with same | ⟨-, empty, shadow, result, -⟩
      · exact ⟨true, vq.shadowAvailIdx, same⟩
      · exact ⟨empty, shadow, result⟩
    · exact ⟨false, vq.shadowAvailIdx, rfl⟩
  obtain ⟨empty, shadow, tested⟩ := tested
  use shadow
  unfold virtioSplitShouldNotify
  rw [tested]
  cases empty with
  | true => exact Or.inl rfl
  | false =>
    right
    simp only [Bool.false_eq_true, if_false, eventIdx, Bool.not_true]
    rfl

section Split

variable {run after : NotifyRun} (signalled : SplitSignalled run)
include signalled

theorem SplitSignalled.flush {count : Nat} (used : run.queue.vring.used ≠ 0)
    (small : count ≤ virtqueueMaxSize) (usedElems : List VirtQueueElement) :
    SplitSignalled
      { run with
        queue := virtqueueSplitFlush { run.queue with usedElems } (UInt32.ofNat count)
        completed := run.completed + count } := by
  have moved : run.queue.usedIdx + (UInt32.ofNat count).toUInt16 =
      UInt16.ofNat (run.completed + count) := by
    rw [signalled.index, UInt32.toUInt16_ofNat', UInt16.ofNat_add]
  have flushed : virtqueueSplitFlush { run.queue with usedElems } (UInt32.ofNat count) =
      { run.queue with
        usedElems
        usedIdx := UInt16.ofNat (run.completed + count)
        inuse := run.queue.inuse - UInt32.ofNat count
        signalledUsedValid := run.queue.signalledUsedValid &&
          !decide ((UInt16.ofNat (run.completed + count) -
            run.queue.signalledUsed).toInt16.toInt <
              (UInt16.ofNat (run.completed + count) - UInt16.ofNat run.completed).toNat) } := by
    rw [virtqueueSplitFlush, if_neg used, ← moved, ← signalled.index]
  rw [flushed]
  have ordered := signalled.ordered
  refine ⟨rfl, Nat.le_add_right_of_le ordered, fun valid => ?_⟩
  rw [Bool.and_eq_true, Bool.not_eq_true', decide_eq_false_iff_not] at valid
  obtain ⟨number, notLater, close, same⟩ := signalled.signalled valid.1
  rw [same] at valid
  exact ⟨number, notLater, distance_lt_of_valid (by omega) close small valid.2, same⟩

theorem SplitSignalled.shouldNotify (eventIdx : run.queue.vdev.eventIdx = true) (guest : Guest) :
    SplitSignalled
      { run with
        queue := (virtioSplitShouldNotify guest run.queue).2, noticed := run.completed } := by
  obtain ⟨shadow, empty | decided⟩ := virtioSplitShouldNotify_cases guest eventIdx
  · rw [empty]
    refine ⟨signalled.index, Nat.le_refl _, fun valid => ?_⟩
    obtain ⟨number, notLater, close, same⟩ := signalled.signalled valid
    exact ⟨number, notLater.trans signalled.ordered, close, same⟩
  · rw [decided]
    exact ⟨signalled.index, Nat.le_refl _, fun _ =>
      ⟨run.completed, Nat.le_refl _, by simp, signalled.index⟩⟩

theorem SplitSignalled.notifies (eventIdx : run.queue.vdev.eventIdx = true) {guest : Guest}
    {number : Nat} (later : run.noticed ≤ number) (done : number < run.completed)
    (event : vringGetUsedEvent guest run.queue = UInt16.ofNat number) :
    (virtioSplitShouldNotify guest run.queue).1 = true := by
  obtain ⟨shadow, empty | decided⟩ := virtioSplitShouldNotify_cases guest eventIdx
  · rw [empty]
  · rw [decided, Bool.or_eq_true, Bool.not_eq_true']
    cases valid : run.queue.signalledUsedValid with
    | false => exact Or.inl rfl
    | true =>
      obtain ⟨last, notLater, close, same⟩ := signalled.signalled valid
      rw [event, signalled.index, same]
      exact Or.inr (vringNeedEvent_of_mem (notLater.trans later) done (by omega))

end Split

/-! ### A packed queue -/

/-- While `signalled_used` is valid the queue is on the lap of the last test. -/
structure PackedSignalled (run : NotifyRun) : Prop where
  counter : usedCounter run.queue = LapCounter.ofNumber run.queue.vring.num run.completed
  ordered : run.noticed ≤ run.completed
  signalled : run.queue.signalledUsedValid = true →
    run.queue.signalledUsed.toNat = run.noticed % run.queue.vring.num ∧
      run.noticed / run.queue.vring.num = run.completed / run.queue.vring.num

theorem virtioPackedShouldNotify_noted {vq : VirtQueue} (mapped : vq.vring.caches ≠ none)
    (guest : Guest) : (virtioPackedShouldNotify guest vq).2 = noteSignalled vq := by
  obtain ⟨length, present⟩ := Option.ne_none_iff_exists'.mp mapped
  simp only [virtioPackedShouldNotify, present]

section Packed

variable {run : NotifyRun} (signalled : PackedSignalled run)
include signalled

theorem PackedSignalled.index :
    run.queue.usedIdx.toNat = run.completed % run.queue.vring.num :=
  congrArg LapCounter.index signalled.counter

theorem PackedSignalled.framed (usedElems : List VirtQueueElement)
    (descRing : List (Option VRingPackedDesc)) (inuse : UInt32) :
    PackedSignalled { run with queue := { run.queue with usedElems, descRing, inuse } } :=
  ⟨signalled.counter, signalled.ordered, signalled.signalled⟩

variable (numPos : 0 < run.queue.vring.num)
include numPos

theorem PackedSignalled.advance {total : UInt32}
    (numSmall : run.queue.vring.num ≤ virtqueueMaxSize)
    (short : total.toNat ≤ run.queue.vring.num) :
    PackedSignalled
      { run with
        queue := packedAdvanceUsed run.queue total
        completed := run.completed + total.toNat } := by
  have inside : run.queue.usedIdx.toNat < run.queue.vring.num := by
    rw [signalled.index]
    exact Nat.mod_lt _ numPos
  obtain ⟨idx, wrap, valid, moved⟩ := packedAdvanceUsed_frame run.queue total
  have ring : (packedAdvanceUsed run.queue total).vring = run.queue.vring := by rw [moved]
  constructor
  · dsimp only
    rw [usedCounter_advance numSmall inside short, ring, signalled.counter]
    exact LapCounter.ofNumber_advance numPos _ short
  · exact Nat.le_add_right_of_le signalled.ordered
  · intro stillValid
    -- The mark stays valid only if `used_idx` stays on its lap.
    have stays : run.queue.signalledUsedValid = true ∧
        run.queue.usedIdx.toNat + total.toNat < run.queue.vring.num := by
      grind [virtqueueMaxSize, packedAdvanceUsed, UInt16.toNat_add, UInt32.toNat_toUInt16]
    rw [signalled.index] at stays
    rw [ring, LapCounter.div_eq_of_sameLap _ stays.2, moved]
    exact signalled.signalled stays.1

omit numPos in
theorem PackedSignalled.shouldNotify (mapped : run.queue.vring.caches ≠ none) (guest : Guest) :
    PackedSignalled
      { run with
        queue := (virtioPackedShouldNotify guest run.queue).2, noticed := run.completed } := by
  rw [virtioPackedShouldNotify_noted mapped]
  exact ⟨signalled.counter, Nat.le_refl _, fun _ => ⟨signalled.index, rfl⟩⟩

/-- On one lap the distances of entries are those of their slots. -/
theorem PackedSignalled.notifies (numSmall : run.queue.vring.num ≤ virtqueueMaxSize)
    (mapped : run.queue.vring.caches ≠ none) {guest : Guest} {number : Nat}
    (later : run.noticed ≤ number) (done : number < run.completed)
    (flags : guest.eventFlags = packedEventFlagDesc)
    (offset : (guest.eventOffWrap &&& 0x7fff).toNat = number % run.queue.vring.num)
    (bit : (guest.eventOffWrap >>> 15 != 0) = decide (number / run.queue.vring.num % 2 = 0)) :
    (virtioPackedShouldNotify guest run.queue).1 = true := by
  obtain ⟨length, present⟩ := Option.ne_none_iff_exists'.mp mapped
  simp only [virtioPackedShouldNotify, present, flags, packedEventFlagDesc,
    packedEventFlagDisable, packedEventFlagEnable]
  cases valid : run.queue.signalledUsedValid with
  | false => rfl
  | true =>
    obtain ⟨last, lap⟩ := signalled.signalled valid
    have low : number / run.queue.vring.num = run.completed / run.queue.vring.num :=
      Nat.le_antisymm (Nat.div_le_div_right (Nat.le_of_lt done))
        (lap ▸ Nat.div_le_div_right later)
    have wrap : run.queue.usedWrapCounter = (guest.eventOffWrap >>> 15 != 0) := by
      rw [bit, low]
      exact congrArg LapCounter.wrap signalled.counter
    have asNumber : ∀ {idx : UInt16} {slot : Nat}, idx.toNat = slot → idx = UInt16.ofNat slot :=
      fun same => by rw [← same, UInt16.ofNat_toNat]
    have split := Nat.div_add_mod number run.queue.vring.num
    have splitDone := Nat.div_add_mod run.completed run.queue.vring.num
    have splitLast := Nat.div_add_mod run.noticed run.queue.vring.num
    have inside := Nat.mod_lt run.completed numPos
    unfold virtqueueMaxSize at numSmall
    rw [low] at split
    rw [lap] at splitLast
    simp only [vringPackedNeedEvent, wrap, bne_self_eq_false, Bool.false_eq_true, if_false]
    rw [asNumber offset, asNumber signalled.index, asNumber last]
    exact vringNeedEvent_of_mem (by omega) (by omega) (by omega)

end Packed

/-! ### Every run -/

/-- What every step keeps: the set-up of the queue, and what is known of
`signalled_used`. -/
structure NotifyInv (config : NotifyConfig) (run : NotifyRun) : Prop where
  vdev : run.queue.vdev = config.vdev
  vring : run.queue.vring = config.vring
  signalled : if config.vdev.ringPacked then PackedSignalled run else SplitSignalled run

theorem notifyInv_reset (config : NotifyConfig) : NotifyInv config config.reset := by
  refine ⟨rfl, rfl, ?_⟩
  split
  · exact ⟨by simp [NotifyConfig.reset, usedCounter, LapCounter.ofNumber], Nat.le_refl _, nofun⟩
  · exact ⟨rfl, Nat.le_refl _, nofun⟩

section Steps

variable {config : NotifyConfig} {run : NotifyRun} (inv : NotifyInv config run)
include inv

theorem NotifyInv.packed (layout : run.queue.vdev.ringPacked = true) : PackedSignalled run := by
  have signalled := inv.signalled
  rwa [← inv.vdev, if_pos layout] at signalled

theorem NotifyInv.split (layout : run.queue.vdev.ringPacked = false) : SplitSignalled run := by
  have signalled := inv.signalled
  rwa [← inv.vdev, layout, if_neg Bool.false_ne_true] at signalled

theorem NotifyInv.shouldNotify (guest : Guest) :
    NotifyInv config
      { run with queue := (virtioShouldNotify guest run.queue).2, noticed := run.completed } := by
  have eventIdx : run.queue.vdev.eventIdx = true := inv.vdev ▸ config.eventIdx
  cases layout : run.queue.vdev.ringPacked with
  | true =>
    have mapped : run.queue.vring.caches ≠ none := inv.vring ▸ config.mapped
    have kept := (inv.packed layout).shouldNotify mapped guest
    rw [virtioShouldNotify, if_pos layout]
    refine ⟨?_, ?_, by rwa [← inv.vdev, if_pos layout]⟩
    all_goals rw [virtioPackedShouldNotify_noted mapped]
    · exact inv.vdev
    · exact inv.vring
  | false =>
    have kept := (inv.split layout).shouldNotify eventIdx guest
    rw [virtioShouldNotify, layout, if_neg Bool.false_ne_true]
    obtain ⟨shadow, decided | decided⟩ := virtioSplitShouldNotify_cases guest eventIdx
    all_goals
      refine ⟨?_, ?_, by rwa [← inv.vdev, layout, if_neg Bool.false_ne_true]⟩
      all_goals rw [decided]
      · exact inv.vdev
      · exact inv.vring

theorem NotifyInv.flushSplit (split : run.queue.vdev.ringPacked = false)
    {elems : List VirtQueueElement} (few : elems.length ≤ run.queue.vring.num)
    (usedElems : List VirtQueueElement) :
    NotifyInv config
      { run with
        queue := virtqueueSplitFlush { run.queue with usedElems } (UInt32.ofNat elems.length)
        completed := run.completed + elems.length } := by
  have used : run.queue.vring.used ≠ 0 := inv.vring ▸ config.usedSet
  have small : elems.length ≤ virtqueueMaxSize := few.trans (inv.vring ▸ config.num_le)
  have kept := (inv.split split).flush used small usedElems
  refine ⟨?_, ?_, by rwa [← inv.vdev, split, if_neg Bool.false_ne_true]⟩
  · simpa only [virtqueueSplitFlush, if_neg used] using inv.vdev
  · simpa only [virtqueueSplitFlush, if_neg used] using inv.vring

theorem NotifyInv.flushPacked (packed : run.queue.vdev.ringPacked = true)
    {elems others : List VirtQueueElement} {after : VirtQueue}
    (few : elems.length ≤ run.queue.vring.num)
    (short : ndescsOf (packedFlushed elems others) ≤ run.queue.vring.num)
    (flushing : virtqueuePackedFlush { run.queue with usedElems := elems ++ others }
      (UInt32.ofNat elems.length) = .ok after) :
    NotifyInv config
      { run with
        queue := after
        completed := run.completed + ndescsOf (packedFlushed elems others) } := by
  have ring : run.queue.vring.desc ≠ 0 := inv.vring ▸ config.descSet
  have numSmall : run.queue.vring.num ≤ virtqueueMaxSize := inv.vring ▸ config.num_le
  have numPos : 0 < run.queue.vring.num := inv.vring ▸ config.num_pos
  -- A flush of none flushes the first all the same.
  have flushed : packedFlushed elems others ≠ [] ∧
      (packedFlushed elems others).length ≤ run.queue.vring.num ∧
      packedFlushed elems others <+: elems ++ others ∧
      virtqueuePackedFlush { run.queue with usedElems := elems ++ others }
        (UInt32.ofNat (packedFlushed elems others).length) = .ok after := by
    cases elems with
    | cons first rest => exact ⟨by simp [packedFlushed], few, by simp [packedFlushed], flushing⟩
    | nil =>
      cases others with
      | nil =>
        simp only [virtqueuePackedFlush, if_neg ring] at flushing
        cases flushing
      | cons first rest =>
        exact ⟨by simp [packedFlushed], numPos, by simp [packedFlushed], by
          simpa [virtqueuePackedFlush, packedFlushed] using flushing⟩
  obtain ⟨some, fewer, initial, flushing⟩ := flushed
  have stored : Stored { run.queue with usedElems := elems ++ others } 0
      (packedFlushed elems others) := by
    intro place elem present
    obtain ⟨rest, whole⟩ := initial
    refine ⟨elem, ?_, rfl⟩
    rw [Nat.zero_add, ← whole, List.getElem?_append_left (List.getElem?_eq_some_iff.mp present).1,
      present]
  unfold virtqueueMaxSize at numSmall
  obtain ⟨total, descRing, sum, rfl⟩ := virtqueuePackedFlush_done some (by exact ring) stored
    (by omega) (by omega) flushing
  rw [← sum] at short ⊢
  have kept := ((inv.packed packed).framed (elems ++ others) descRing
    (run.queue.inuse - total)).advance numPos numSmall short
  obtain ⟨idx, wrap, valid, moved⟩ := packedAdvanceUsed_frame
    { run.queue with
      usedElems := elems ++ others, descRing, inuse := run.queue.inuse - total } total
  refine ⟨?_, ?_, by rwa [← inv.vdev, if_pos packed]⟩
  · exact (congrArg VirtQueue.vdev moved).trans inv.vdev
  · exact (congrArg VirtQueue.vring moved).trans inv.vring

end Steps

theorem NotifyInv.step (config : NotifyConfig) (run : NotifyRun) (op : NotifyOp)
    (after : NotifyRun) (inv : NotifyInv config run) (fits : FlushFits run op)
    (taken : config.system.step run op after) : NotifyInv config after := by
  change run.next op = some after at taken
  cases op with
  | shouldNotify guest =>
    cases taken
    exact inv.shouldNotify guest
  | flush elems others =>
    have enabled : virtioDeviceDisabled run.queue.vdev = false := inv.vdev ▸ config.enabled
    have unordered : run.queue.vdev.inOrder = false := inv.vdev ▸ config.unordered
    obtain ⟨queue, flushing, rfl⟩ := Option.map_eq_some_iff.mp taken
    rw [toOption_eq_some] at flushing
    obtain ⟨few, short⟩ := fits
    cases layout : run.queue.vdev.ringPacked with
    | true =>
      rw [flushedEntries, if_pos layout] at short ⊢
      rw [@virtqueueFlush_packed { run.queue with usedElems := elems ++ others } enabled
        unordered layout] at flushing
      exact inv.flushPacked layout few short flushing
    | false =>
      rw [flushedEntries, layout, if_neg Bool.false_ne_true]
      rw [@virtqueueFlush_split { run.queue with usedElems := elems ++ others } enabled
        unordered layout] at flushing
      cases flushing
      exact inv.flushSplit layout few _

theorem notifyInv_of_reached {config : NotifyConfig} {run : NotifyRun}
    (reached : config.system.ReachedBy FlushFits run) : NotifyInv config run := by
  apply reached.invariant (NotifyInv config)
  · intro start initial
    rw [show start = config.reset from initial]
    exact notifyInv_reset config
  · exact NotifyInv.step config

/-- In every run of flushes and tests, an entry completed since the last test that is
the one the guest waits for makes the next test notify it. -/
theorem shouldNotify_of_event {config : NotifyConfig} {run : NotifyRun}
    (reached : config.system.ReachedBy FlushFits run) {guest : Guest} {number : Nat}
    (later : run.noticed ≤ number) (done : number < run.completed)
    (event : EventAt guest run.queue number) :
    (virtioShouldNotify guest run.queue).1 = true := by
  have inv := notifyInv_of_reached reached
  cases layout : run.queue.vdev.ringPacked with
  | true =>
    rw [EventAt, if_pos layout] at event
    rw [virtioShouldNotify, if_pos layout]
    exact (inv.packed layout).notifies (inv.vring ▸ config.num_pos) (inv.vring ▸ config.num_le)
      (inv.vring ▸ config.mapped) later done event.1 event.2.1 event.2.2
  | false =>
    rw [EventAt, layout, if_neg Bool.false_ne_true] at event
    rw [virtioShouldNotify, layout, if_neg Bool.false_ne_true]
    exact (inv.split layout).notifies (inv.vdev ▸ config.eventIdx) later done event

/-- A packed ring of four slots on its second lap: the guest waits for its second slot,
with the wrap bit clear. -/
theorem shouldNotify_of_event_second_lap :
    ∃ (config : NotifyConfig) (run : NotifyRun) (guest : Guest),
      config.system.ReachedBy FlushFits run ∧ run.noticed ≤ 5 ∧ 5 < run.completed ∧
        EventAt guest run.queue 5 ∧ (virtioShouldNotify guest run.queue).1 = true := by
  let config : NotifyConfig :=
    { vring := { num := 4, desc := 1, avail := 1, used := 1, caches := some 64 }
      vdev := { ringPacked := true, eventIdx := true }
      num_pos := by decide
      num_le := by decide
      eventIdx := rfl
      unordered := rfl
      enabled := rfl
      mapped := nofun
      descSet := by decide
      usedSet := by decide }
  let labels : List NotifyOp :=
    [.flush [{ ndescs := 3 }] [], .shouldNotify {}, .flush [{ ndescs := 3 }] []]
  let guest : Guest := { eventFlags := 2, eventOffWrap := 1 }
  have ran : (LabelledSystem.runLabels NotifyRun.next FlushFits config.reset labels).map
      (fun run => (run.noticed, run.completed, run.queue.vdev, run.queue.vring)) =
        some (3, 6, config.vdev, config.vring) := by decide +kernel
  obtain ⟨run, ran, projected⟩ := Option.map_eq_some_iff.mp ran
  simp only [Prod.mk.injEq] at projected
  obtain ⟨noticed, completed, vdev, vring⟩ := projected
  have reached : config.system.ReachedBy FlushFits run := (.start rfl : config.system.ReachedBy
    FlushFits config.reset).run labels ran
  have event : EventAt guest run.queue 5 := by
    rw [EventAt, vdev, vring, if_pos rfl]
    exact ⟨rfl, by decide, by decide⟩
  have later : run.noticed ≤ 5 := by omega
  have done : 5 < run.completed := by omega
  exact ⟨config, run, guest, reached, later, done, event,
    shouldNotify_of_event reached later done event⟩

end QemuGzvm.Virtio
