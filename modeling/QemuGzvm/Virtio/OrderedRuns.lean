import QemuGzvm.Virtio.OrderedFlush
import QemuGzvm.Virtio.OrderedPop
import QemuGzvm.Virtio.PackedRuns

/-!
Contract: the runs of a virtqueue with `VIRTIO_F_IN_ORDER`, of either layout.

Owns:
- `OrderedRun`, a queue with all elements popped from it and the lengths they were
  pushed with, and the operations of its device model;
- `OrderedKept`, the condition on operations under which nothing is lost;
- `OrderedInv`, which every operation that meets it keeps whatever the guest writes, as
  long as the device is not broken.

The elements flushed are those that were pushed with all elements popped before them.
-/

namespace QemuGzvm.Virtio

open QemuGzvm.Library

/-! ### Runs -/

/-- A queue as it is set up, with a size that `virtio_queue_set_num` accepts. -/
structure OrderedConfig where
  vring : VRing
  vdev : VirtIODevice := { inOrder := true }
  usedElems : List VirtQueueElement := List.replicate vring.num {}
  num_pos : 0 < vring.num
  num_le : vring.num ≤ virtqueueMaxSize
  ordered : vdev.inOrder = true
  working : vdev.broken = false
  unfilled : ∀ entry ∈ usedElems, entry.inOrderFilled = false

def OrderedConfig.reset (config : OrderedConfig) : VirtQueue :=
  { vdev := config.vdev, vring := config.vring, usedElems := config.usedElems }

/-- A queue and the elements popped from it since reset, in this order. -/
structure OrderedRun where
  queue : VirtQueue
  popped : List OrderedElem := []

namespace OrderedRun

/-- The elements that were pushed, with all those popped before them. -/
def flushed (s : OrderedRun) : List OrderedElem := completed s.popped

def window (s : OrderedRun) : List OrderedElem := remaining s.popped

/-- The elements in flight that were popped before element `place`. -/
def ahead (s : OrderedRun) (place : Nat) : List OrderedElem :=
  s.window.take (place - s.flushed.length)

def pop (s : OrderedRun) (queue : VirtQueue) (elem : VirtQueueElement) : OrderedRun :=
  { queue, popped := s.popped ++ [⟨elem, none⟩] }

def push (s : OrderedRun) (queue : VirtQueue) (place : Nat) (item : OrderedElem) (len : UInt32) :
    OrderedRun :=
  { queue, popped := s.popped.set place { item with pushed := some len } }

end OrderedRun

/-- What a device model does next. An element is named by its place in `popped`. -/
inductive OrderedOp where
  | pop (guest : Guest)
  | push (place : Nat) (len : UInt32)

/-- One operation. It is blocked where the device model would not make it and where the
call does not return. -/
def OrderedRun.next (s : OrderedRun) : OrderedOp → Option OrderedRun
  | .pop guest =>
    match virtqueuePop guest s.queue with
    | .error _ => none
    | .ok (none, queue) => some { s with queue }
    | .ok (some elem, queue) => some (s.pop queue elem)
  | .push place len =>
    s.popped[place]?.bind fun item =>
      if item.pushed = none then
        (virtqueuePush s.queue item.elem len).toOption.map fun queue =>
          s.push queue place item len
      else none

def orderedSystem (config : OrderedConfig) : LabelledSystem OrderedRun OrderedOp :=
  .ofNext { queue := config.reset } OrderedRun.next

/-- The condition on an operation. A pop: its element fits beside the descriptors in use,
`used_elems` has an entry for every descriptor of the ring, and a split queue has a size
that divides the range of its indices, or they have not gone around. A push: the walk
reaches the element, and a split queue has a used ring. -/
def OrderedKept (s : OrderedRun) : OrderedOp → Prop
  | .pop guest =>
    s.queue.inuse.toNat + ndescsPopped guest s.queue ≤ s.queue.vring.num ∧
    s.queue.vring.num ≤ s.queue.usedElems.length ∧
    (s.queue.vdev.ringPacked = true ∨ s.queue.vring.num ∣ 2 ^ 16 ∨
      s.popped.length + 1 < 2 ^ 16)
  | .push place _ =>
    (s.queue.vdev.ringPacked = true ∨ s.queue.vring.used ≠ 0) ∧
    ∀ item ∈ s.popped[place]?, FillReaches s.queue (s.ahead place) item.elem.index

instance (s : OrderedRun) (op : OrderedOp) : Decidable (OrderedKept s op) :=
  match op with
  | .pop _ => inferInstanceAs (Decidable (_ ∧ _ ∧ _))
  | .push _ _ => inferInstanceAs (Decidable (_ ∧ _))

/-! ### The invariant -/

/-- The counters of a split queue: they count descriptors, modulo their range. -/
structure SplitOrdered (num : Nat) (s : OrderedRun) : Prop where
  single : ∀ item ∈ s.popped, item.slots = 1
  usedIdx : s.queue.usedIdx.toNat = descsOf s.flushed % 2 ^ 16
  lastAvailIdx : s.queue.lastAvailIdx.toNat = descsOf s.popped % 2 ^ 16
  sizes : num ∣ 2 ^ 16 ∨ descsOf s.popped < 2 ^ 16

/-- The counters of a packed queue: they count descriptors on the ring. -/
structure PackedOrdered (num : Nat) (s : OrderedRun) : Prop where
  used : usedCounter s.queue = LapCounter.ofNumber num (descsOf s.flushed)
  avail : availCounter s.queue = LapCounter.ofNumber num (descsOf s.popped)

/-- Nothing is popped from a queue of a disabled device or without a ring. -/
def OrderedConfig.Idle (config : OrderedConfig) : Prop :=
  config.vdev.disabled = true ∨ config.vring.caches = none ∨
    config.vdev.ringPacked = true ∧ config.vring.desc = 0

/-- What holds of a run as long as the device is not broken. -/
structure OrderedInv (config : OrderedConfig) (s : OrderedRun) : Prop where
  vring : s.queue.vring = config.vring
  vdev : s.queue.vdev = config.vdev
  idle : config.Idle → s.popped = []
  covers : s.popped ≠ [] → config.vring.num ≤ s.queue.usedElems.length
  inFlight : InFlight config.vring.num s.queue.usedElems (descsOf s.flushed) s.window
  inuse : s.queue.inuse.toNat = descsOf s.window
  split : config.vdev.ringPacked = false → SplitOrdered config.vring.num s
  packed : config.vdev.ringPacked = true → PackedOrdered config.vring.num s
  usedHolds : config.vdev.ringPacked = false →
    UsedHolds config.vring.num s.queue.usedRing s.flushed
  descHolds : config.vdev.ringPacked = true →
    DescHolds config.vring.num s.queue.descRing s.flushed

theorem orderedInv_reset (config : OrderedConfig) :
    OrderedInv config { queue := config.reset } where
  vring := rfl
  vdev := rfl
  idle := fun _ => rfl
  covers := fun some => (some rfl).elim
  inFlight := RingWindow.Laid.nil config.unfilled
  inuse := rfl
  split := fun _ => ⟨nofun, rfl, rfl, .inr (Nat.two_pow_pos 16)⟩
  packed := fun _ => by
    constructor
    · simp [usedCounter, OrderedConfig.reset, LapCounter.ofNumber, OrderedRun.flushed, completed]
    · simp [availCounter, OrderedConfig.reset, LapCounter.ofNumber]
  usedHolds := fun _ => RingWindow.Written.nil _ _
  descHolds := fun _ => RingWindow.Written.nil _ _

theorem splitRecordIndex {num taken : Nat} {idx : UInt16} (counted : idx.toNat = taken % 2 ^ 16)
    (sizes : num ∣ 2 ^ 16 ∨ taken + 1 < 2 ^ 16) :
    ((idx + 1).toUInt32 - 1).toNat % num = taken % num := by
  have next : (idx + 1).toUInt32.toNat = (taken % 2 ^ 16 + 1) % 2 ^ 16 := by
    rw [UInt16.toNat_toUInt32, UInt16.toNat_add, counted]
    rfl
  have back : ((idx + 1).toUInt32 - 1).toNat =
      (2 ^ 32 - 1 + (taken % 2 ^ 16 + 1) % 2 ^ 16) % 2 ^ 32 := by
    rw [UInt32.toNat_sub, next]
    rfl
  rw [back]
  by_cases last : taken % 2 ^ 16 = 2 ^ 16 - 1
  · -- The 16-bit index wraps to zero, and the 32-bit one below it.
    obtain ⟨laps, range⟩ := sizes.resolve_right (by omega)
    have far : (2 ^ 32 - 1 + (taken % 2 ^ 16 + 1) % 2 ^ 16) % 2 ^ 32 =
        taken % 2 ^ 16 + 2 ^ 16 * (2 ^ 16 - 1) := by omega
    rw [far, range, Nat.mul_assoc, Nat.add_mul_mod_self_left, Nat.mod_mul_right_mod]
  · have near : (2 ^ 32 - 1 + (taken % 2 ^ 16 + 1) % 2 ^ 16) % 2 ^ 32 = taken % 2 ^ 16 := by omega
    rw [near]
    rcases sizes with divides | below
    · exact Nat.mod_mod_of_dvd _ divides
    · rw [Nat.mod_eq_of_lt (Nat.lt_of_succ_lt below)]

variable {config : OrderedConfig} {s : OrderedRun}

theorem OrderedRun.flushed_pop (s : OrderedRun) (queue : VirtQueue) (elem : VirtQueueElement) :
    (s.pop queue elem).flushed = s.flushed := (completed_concat rfl s.popped).1

theorem OrderedRun.window_pop (s : OrderedRun) (queue : VirtQueue) (elem : VirtQueueElement) :
    (s.pop queue elem).window = s.window ++ [⟨elem, none⟩] := (completed_concat rfl s.popped).2

theorem OrderedRun.descsOf_pop (s : OrderedRun) (queue : VirtQueue) (elem : VirtQueueElement) :
    descsOf (s.pop queue elem).popped = descsOf s.popped + elem.ndescs.toNat :=
  RingWindow.extent_concat s.popped ⟨elem, none⟩

theorem OrderedRun.flushed_append_window (s : OrderedRun) : s.flushed ++ s.window = s.popped :=
  completed_append_remaining s.popped

theorem OrderedRun.descsOf_popped (s : OrderedRun) :
    descsOf s.popped = descsOf s.flushed + descsOf s.window :=
  (descsOf_completed_add s.popped).symm

namespace OrderedInv

section

variable (inv : OrderedInv config s)
include inv

theorem num_le : s.queue.vring.num ≤ virtqueueMaxSize := by
  rw [inv.vring]
  exact config.num_le

theorem ordered : s.queue.vdev.inOrder = true := by
  rw [inv.vdev, config.ordered]

theorem working (some : s.popped ≠ []) :
    virtioDeviceDisabled s.queue.vdev = false ∧ s.queue.vring.caches ≠ none ∧
      (s.queue.vdev.ringPacked = true → s.queue.vring.desc ≠ 0) := by
  have busy : ¬config.Idle := fun idle => some (inv.idle idle)
  obtain ⟨able, busy⟩ := not_or.mp busy
  obtain ⟨cached, busy⟩ := not_or.mp busy
  rw [virtioDeviceDisabled, inv.vdev, inv.vring, config.working, Bool.or_false]
  exact ⟨Bool.eq_false_iff.mpr able, cached, fun packed missing => busy ⟨packed, missing⟩⟩

theorem head :
    s.queue.usedIdx.toNat % config.vring.num = descsOf s.flushed % config.vring.num := by
  cases layout : config.vdev.ringPacked with
  | false =>
    have counters := inv.split layout
    have parts := s.descsOf_popped
    rw [counters.usedIdx]
    rcases counters.sizes with divides | below
    · exact Nat.mod_mod_of_dvd _ divides
    · rw [Nat.mod_eq_of_lt (a := descsOf s.flushed) (by omega)]
  | true =>
    have position : s.queue.usedIdx.toNat = descsOf s.flushed % config.vring.num :=
      congrArg LapCounter.index (inv.packed layout).used
    rw [position, Nat.mod_mod]

/-! ### Popping -/

section Pop

variable (old elem : VirtQueueElement) (shadow : UInt16)

theorem take_packed (layout : config.vdev.ringPacked = true)
    (short : elem.ndescs.toNat ≤ config.vring.num) :
    PackedOrdered config.vring.num (s.pop (orderedTake s.queue old elem shadow) elem) := by
  obtain ⟨idx, wrap, newShadow, shadowWrap, framed⟩ := orderedTake_frame s.queue old shadow
    (fun split => by rw [inv.vdev, layout] at split; cases split)
  constructor
  · rw [s.flushed_pop, ← (inv.packed layout).used, OrderedRun.pop, framed]
    rfl
  · have counter := (inv.packed layout).avail
    have numPos := config.num_pos
    rw [← inv.vring] at counter short numPos ⊢
    rw [s.descsOf_pop]
    exact orderedTake_availCounter old elem shadow (inv.vdev ▸ layout) numPos inv.num_le counter
      short

variable (sizes : s.queue.vdev.ringPacked = true ∨ s.queue.vring.num ∣ 2 ^ 16 ∨
  s.popped.length + 1 < 2 ^ 16)
include sizes

/-- A pop records its element behind the elements in flight. -/
theorem recordIndex_eq :
    recordIndex s.queue =
      (descsOf s.flushed + descsOf s.window) % config.vring.num := by
  rw [← s.descsOf_popped, recordIndex, inv.vdev, inv.vring]
  rw [inv.vdev, inv.vring] at sizes
  cases layout : config.vdev.ringPacked with
  | false =>
    have counters := inv.split layout
    rw [if_neg Bool.false_ne_true]
    apply splitRecordIndex counters.lastAvailIdx
    rw [layout] at sizes
    have counted : descsOf s.popped = s.popped.length :=
      RingWindow.extent_eq_length counters.single
    rw [counted]
    exact sizes.resolve_left Bool.false_ne_true
  | true =>
    rw [if_pos rfl]
    exact congrArg LapCounter.index (inv.packed layout).avail

theorem take_split (layout : config.vdev.ringPacked = false)
    (single : s.queue.vdev.ringPacked = false → elem.ndescs = 1) :
    SplitOrdered config.vring.num (s.pop (orderedTake s.queue old elem shadow) elem) := by
  have counters := inv.split layout
  have one : elem.ndescs = 1 := single (inv.vdev ▸ layout)
  have next : (orderedTake s.queue old elem shadow).usedIdx = s.queue.usedIdx ∧
      (orderedTake s.queue old elem shadow).lastAvailIdx = s.queue.lastAvailIdx + 1 := by
    rw [orderedTake, inv.vdev, layout]
    exact ⟨rfl, rfl⟩
  have grown := s.descsOf_pop (orderedTake s.queue old elem shadow) elem
  rw [one] at grown
  refine ⟨?_, ?_, ?_, ?_⟩
  · intro item member
    rcases List.mem_append.mp member with before | last
    · exact counters.single item before
    · rw [List.mem_singleton.mp last, OrderedElem.slots, one]
      rfl
  · rw [s.flushed_pop]
    exact (congrArg UInt16.toNat next.1).trans counters.usedIdx
  · rw [grown]
    refine (congrArg UInt16.toNat next.2).trans ?_
    rw [UInt16.toNat_add, counters.lastAvailIdx]
    exact Nat.mod_add_mod _ _ _
  · have counted : descsOf s.popped = s.popped.length :=
      RingWindow.extent_eq_length counters.single
    rw [inv.vdev, inv.vring, layout] at sizes
    rw [grown, counted]
    exact sizes.resolve_left Bool.false_ne_true

theorem take (enabled : virtioDeviceDisabled s.queue.vdev = false)
    (cached : s.queue.vring.caches ≠ none)
    (area : s.queue.vdev.ringPacked = true → s.queue.vring.desc ≠ 0)
    (positive : 0 < elem.ndescs.toNat)
    (single : s.queue.vdev.ringPacked = false → elem.ndescs = 1)
    (present : s.queue.usedElems[recordIndex s.queue]? = some old)
    (fits : s.queue.inuse.toNat + elem.ndescs.toNat ≤ s.queue.vring.num)
    (covers : s.queue.vring.num ≤ s.queue.usedElems.length) :
    OrderedInv config (s.pop (orderedTake s.queue old elem shadow) elem) := by
  rw [inv.vring] at fits covers
  have numSmall := config.num_le
  unfold virtqueueMaxSize at numSmall
  have held := inv.inuse
  have position := inv.recordIndex_eq sizes
  have inuseGrown : (s.queue.inuse + elem.ndescs).toNat =
      s.queue.inuse.toNat + elem.ndescs.toNat := by
    rw [UInt32.toNat_add]
    omega
  have room : descsOf s.window + elem.ndescs.toNat ≤ config.vring.num := by omega
  rw [position] at present
  have busy : ¬config.Idle := by
    rintro (disabled | missing | ⟨packed, missing⟩)
    · rw [virtioDeviceDisabled, inv.vdev, disabled] at enabled
      cases enabled
    · exact cached (inv.vring ▸ missing)
    · exact area (inv.vdev ▸ packed) (inv.vring ▸ missing)
  have splitTaken := fun layout => inv.take_split old elem shadow sizes layout single
  have packedTaken := fun layout => inv.take_packed old elem shadow layout (by omega)
  obtain ⟨idx, wrap, newShadow, shadowWrap, framed⟩ :=
    orderedTake_frame s.queue old shadow single
  rw [framed] at splitTaken packedTaken ⊢
  refine ⟨inv.vring, inv.vdev, fun idle => (busy idle).elim, fun _ => ?_, ?_, ?_, splitTaken,
    packedTaken, fun layout => ?_, fun layout => ?_⟩
  · exact covers.trans (Nat.le_of_eq List.length_set.symm)
  · rw [s.flushed_pop, s.window_pop, position]
    exact inFlight_record inv.inFlight positive room covers present
  · rw [s.window_pop]
    refine inuseGrown.trans ?_
    rw [held]
    exact (RingWindow.extent_concat s.window (⟨elem, none⟩ : OrderedElem)).symm
  · rw [s.flushed_pop]
    exact inv.usedHolds layout
  · rw [s.flushed_pop]
    exact inv.descHolds layout

end Pop

end

/-! ### Pushing -/

variable {item : OrderedElem} {place : Nat} {op : OrderedOp} {t : OrderedRun}

/-- An element that is not pushed is in flight. -/
theorem window_place (present : s.popped[place]? = some item) (waiting : item.pushed = none) :
    s.flushed.length ≤ place ∧ s.window[place - s.flushed.length]? = some item := by
  rw [← s.flushed_append_window] at present
  rcases Nat.lt_or_ge place s.flushed.length with before | behind
  · rw [List.getElem?_append_left before] at present
    have pushed := isSome_of_mem_completed (List.mem_of_getElem? present)
    rw [waiting] at pushed
    cases pushed
  · rw [List.getElem?_append_right behind] at present
    exact ⟨behind, present⟩

theorem entryAt_window (behind : s.flushed.length ≤ place) :
    entryAt config.vring.num (descsOf s.flushed) s.window (place - s.flushed.length) =
      entryAt config.vring.num 0 s.popped place := by
  have offsets : RingWindow.offset OrderedElem.slots (s.flushed ++ s.window) _ = _ :=
    RingWindow.offset_append_right s.flushed (place - s.flushed.length)
  rw [Nat.add_sub_cancel' behind, s.flushed_append_window] at offsets
  rw [entryAt, entryAt, RingWindow.slot, RingWindow.slot, offsets, Nat.zero_add]

theorem fill_iff (inv : OrderedInv config s) (present : s.popped[place]? = some item)
    (waiting : item.pushed = none) (len : UInt32) :
    virtqueueOrderedFill s.queue item.elem len =
        .ok { s.queue with
              usedElems := markFilled s.queue.usedElems
                (entryAt config.vring.num 0 s.popped place) len } ↔
      FillReaches s.queue (s.ahead place) item.elem.index := by
  obtain ⟨behind, inWindow⟩ := window_place present waiting
  have some : s.popped ≠ [] := List.ne_nil_of_mem (List.mem_of_getElem? present)
  rw [← entryAt_window behind]
  have inFlight := inv.inFlight
  have head := inv.head
  have covers := inv.covers some
  have numPos := config.num_pos
  rw [← inv.vring] at inFlight head covers numPos ⊢
  exact virtqueueOrderedFill_iff numPos covers inFlight head inWindow waiting len

section Push

variable (present : s.popped[place]? = some item) (waiting : item.pushed = none) (len : UInt32)
include present waiting

/-- The elements flushed by a push are those at the head of the window. -/
theorem parts_push (queue : VirtQueue) :
    let window := s.window.set (place - s.flushed.length) { item with pushed := some len }
    (s.push queue place item len).flushed = s.flushed ++ completed window ∧
      (s.push queue place item len).window = remaining window := by
  obtain ⟨behind, -⟩ := window_place present waiting
  have popped : s.popped.set place { item with pushed := some len } =
      s.flushed ++ s.window.set (place - s.flushed.length) { item with pushed := some len } := by
    rw [← List.set_append_right _ _ behind, s.flushed_append_window]
  unfold OrderedRun.window OrderedRun.push
  rw [popped]
  exact completed_append (fun _ member => isSome_of_mem_completed member) _

theorem inFlight_push (inv : OrderedInv config s) :
    InFlight config.vring.num
      (markFilled s.queue.usedElems (entryAt config.vring.num 0 s.popped place) len)
      (descsOf s.flushed)
      (s.window.set (place - s.flushed.length) { item with pushed := some len }) := by
  obtain ⟨behind, inWindow⟩ := window_place present waiting
  rw [← entryAt_window behind]
  exact inFlight_fill inv.inFlight inWindow len

theorem flush_push (inv : OrderedInv config s) {after : VirtQueue}
    (flushing : OrderedFlushed (descsOf s.flushed)
      (s.window.set (place - s.flushed.length) { item with pushed := some len })
      { s.queue with
        usedElems := markFilled s.queue.usedElems (entryAt config.vring.num 0 s.popped place) len }
      after) :
    OrderedInv config (s.push after place item len) := by
  have nonempty : s.popped ≠ [] := List.ne_nil_of_mem (List.mem_of_getElem? present)
  obtain ⟨behind, inWindow⟩ := window_place present waiting
  obtain ⟨enabled, cached, area⟩ := inv.working nonempty
  obtain ⟨flushedEq, windowEq⟩ := parts_push present waiting len after
  generalize changed :
    s.window.set (place - s.flushed.length) { item with pushed := some len } = window
    at flushing flushedEq windowEq
  have held : descsOf window = descsOf s.window := by
    rw [← changed]
    exact RingWindow.extent_set inWindow rfl
  have parts := descsOf_completed_add window
  have all : descsOf (s.push after place item len).popped = descsOf s.popped :=
    RingWindow.extent_set present rfl
  have flushedDescs : descsOf (s.flushed ++ completed window) =
      descsOf s.flushed + descsOf (completed window) := RingWindow.extent_append _ _
  have numEq := congrArg VRing.num inv.vring
  refine ⟨flushing.vring.trans inv.vring, flushing.vdev.trans inv.vdev,
    fun idle => (nonempty (inv.idle idle)).elim, fun _ => ?_, ?_, ?_, fun layout => ?_,
    fun layout => ?_, fun layout => ?_, fun layout => ?_⟩
  · have same := flushing.covers
    rw [markFilled, List.length_modify] at same
    exact (inv.covers nonempty).trans (Nat.le_of_eq same.symm)
  · have inFlight := flushing.inFlight
    rw [flushedEq, windowEq, flushedDescs, ← numEq]
    exact inFlight
  · have left := flushing.inuse
    have before := inv.inuse
    rw [windowEq]
    change after.inuse.toNat = _
    dsimp only at left
    omega
  · have counters := inv.split layout
    refine ⟨?_, ?_, ?_, ?_⟩
    · intro other member
      rcases List.mem_or_eq_of_mem_set member with before | rfl
      · exact counters.single other before
      · exact counters.single item (List.mem_of_getElem? present)
    · rw [flushedEq, flushedDescs]
      refine (congrArg UInt16.toNat (flushing.usedIdx (inv.vdev ▸ layout))).trans ?_
      rw [UInt16.toNat_add, UInt16.toNat_ofNat', counters.usedIdx]
      exact (Nat.add_mod _ _ _).symm
    · rw [all]
      exact (congrArg LapCounter.index flushing.avail).trans counters.lastAvailIdx
    · rw [all]
      exact counters.sizes
  · have counters := inv.packed layout
    constructor
    · rw [flushedEq, flushedDescs, ← numEq]
      exact flushing.usedCounter (inv.vdev ▸ layout)
    · rw [all]
      exact flushing.avail.trans counters.avail
  · rw [flushedEq, ← numEq]
    exact flushing.usedRing (inv.vdev ▸ layout) cached s.flushed rfl (numEq ▸ inv.usedHolds layout)
  · rw [flushedEq, ← numEq]
    exact flushing.descRing (inv.vdev ▸ layout) cached s.flushed rfl (numEq ▸ inv.descHolds layout)

theorem push (inv : OrderedInv config s)
    (used : s.queue.vdev.ringPacked = true ∨ s.queue.vring.used ≠ 0)
    (reaches : FillReaches s.queue (s.ahead place) item.elem.index) :
    ∃ queue, virtqueuePush s.queue item.elem len = .ok queue ∧
      OrderedInv config (s.push queue place item len) := by
  have nonempty : s.popped ≠ [] := List.ne_nil_of_mem (List.mem_of_getElem? present)
  obtain ⟨behind, inWindow⟩ := window_place present waiting
  obtain ⟨enabled, cached, area⟩ := inv.working nonempty
  have filled := (inv.fill_iff present waiting len).mpr reaches
  have held : descsOf (s.window.set (place - s.flushed.length) { item with pushed := some len }) =
      descsOf s.window := RingWindow.extent_set inWindow rfl
  have inFlight := inv.inFlight_push present waiting len
  have covers : config.vring.num ≤
      (markFilled s.queue.usedElems (entryAt config.vring.num 0 s.popped place) len).length := by
    rw [markFilled, List.length_modify]
    exact inv.covers nonempty
  have head := inv.head
  have numPos := config.num_pos
  have counter : s.queue.vdev.ringPacked = true → s.queue.vring.desc ≠ 0 ∧
      usedCounter s.queue = LapCounter.ofNumber config.vring.num (descsOf s.flushed) :=
    fun packed => ⟨area packed, (inv.packed (inv.vdev ▸ packed)).used⟩
  have keeps := fun after (flushing : OrderedFlushed _ _ _ after) =>
    inv.flush_push present waiting len flushing
  rw [← inv.vring] at inFlight covers head numPos counter filled keeps
  obtain ⟨after, flushing, flushed⟩ := @virtqueueOrderedFlush_done
    { s.queue with
      usedElems := markFilled s.queue.usedElems (entryAt s.queue.vring.num 0 s.popped place) len }
    _ _ numPos inv.num_le counter covers inFlight
    (fun split => used.resolve_left (by rw [split]; exact Bool.false_ne_true)) head
    (Nat.le_of_eq (held.trans inv.inuse.symm))
  refine ⟨after, ?_, keeps after flushed⟩
  rw [virtqueuePush, virtqueueFill_ordered enabled inv.ordered, filled, bind_ok]
  refine Eq.trans (virtqueueFlush_ordered ?_ ?_ 1) flushing
  · exact enabled
  · exact inv.ordered

end Push

/-! ### Steps and runs -/

theorem next (inv : OrderedInv config s)
    (kept : OrderedKept s op) (taken : s.next op = some t) :
    t.queue.vdev.broken = true ∨ OrderedInv config t := by
  cases op with
  | pop guest =>
    simp only [OrderedRun.next] at taken
    simp only [OrderedKept, ndescsPopped] at kept
    split at taken
    · cases taken
    next queue popped =>
      cases taken
      rcases virtqueuePop_ordered inv.ordered inv.num_le popped with shadow | broken
      · exact Or.inr ⟨inv.vring, inv.vdev, inv.idle, inv.covers, inv.inFlight, inv.inuse,
          fun layout =>
            have counters := inv.split layout
            ⟨counters.single, counters.usedIdx, counters.lastAvailIdx, counters.sizes⟩,
          fun layout =>
            have counters := inv.packed layout
            ⟨counters.used, counters.avail⟩,
          inv.usedHolds, inv.descHolds⟩
      · exact Or.inl broken
    next elem queue popped =>
      cases taken
      rw [popped] at kept
      obtain ⟨fits, covers, sizes⟩ := kept
      rcases virtqueuePop_ordered inv.ordered inv.num_le popped with
        _ | _ | ⟨shadow, enabled, cached, area, -, positive, -, single, present⟩
      exact Or.inr (inv.take _ elem shadow sizes enabled cached area positive single present fits
        covers)
  | push place len =>
    obtain ⟨item, present, taken⟩ := Option.bind_eq_some_iff.mp taken
    obtain ⟨used, reaches⟩ := kept
    split at taken
    next waiting =>
      obtain ⟨queue, done, rfl⟩ := Option.map_eq_some_iff.mp taken
      obtain ⟨after, pushing, kept⟩ :=
        inv.push present waiting len used (reaches item present)
      rw [pushing] at done
      cases done
      exact Or.inr kept
    · cases taken

end OrderedInv

theorem OrderedRun.next_broken
    (broken : s.queue.vdev.broken = true) (taken : s.next op = some t) :
    t.queue.vdev.broken = true := by
  have disabled : virtioDeviceDisabled s.queue.vdev = true := by
    rw [virtioDeviceDisabled, broken, Bool.or_true]
  cases op with
  | pop guest =>
    simp only [OrderedRun.next, virtqueuePop, disabled, if_true] at taken
    cases taken
    exact broken
  | push place len =>
    obtain ⟨item, -, taken⟩ := Option.bind_eq_some_iff.mp taken
    split at taken
    · rw [virtqueuePush, virtqueueFill_disabled disabled, bind_ok,
        virtqueueFlush_disabled disabled] at taken
      cases taken
      exact broken
    · cases taken

theorem orderedInv_of_reached (reached : (orderedSystem config).ReachedBy OrderedKept s)
    (unbroken : s.queue.vdev.broken = false) : OrderedInv config s := by
  refine reached.invariant_unless (fun s => s.queue.vdev.broken = true) (OrderedInv config) ?_ ?_ ?_
    (Bool.eq_false_iff.mp unbroken)
  · rintro start rfl
    exact orderedInv_reset config
  · exact fun before _ _ broken taken => before.next_broken broken taken
  · exact fun _ _ _ inv kept taken => inv.next kept taken

end QemuGzvm.Virtio
