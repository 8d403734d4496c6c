import QemuGzvm.Library.Ring
import QemuGzvm.Library.Transition
import QemuGzvm.Virtio.Operations

/-!
Contract: the runs of a split virtqueue without `VIRTIO_F_IN_ORDER`.

Owns:
- `SplitRun`, a queue with the elements its device model holds and has pushed, and
  the operations a device model makes;
- `SplitInv`, which every operation keeps whatever the guest writes, as long as the
  device is not broken.
-/

namespace QemuGzvm.Virtio

open QemuGzvm.Library

/-! ### Runs -/

/-- A queue as it is set up: split, without `VIRTIO_F_IN_ORDER`, with a size that
`virtio_queue_set_num` accepts. -/
structure SplitConfig where
  vring : VRing
  vdev : VirtIODevice := {}
  usedElems : List VirtQueueElement := []
  num_pos : 0 < vring.num
  num_le : vring.num ≤ virtqueueMaxSize
  split : vdev.ringPacked = false
  unordered : vdev.inOrder = false
  working : vdev.broken = false

def SplitConfig.reset (config : SplitConfig) : VirtQueue :=
  { vdev := config.vdev, vring := config.vring, usedElems := config.usedElems }

/-- A queue and what its device model has done with it since reset. -/
structure SplitRun where
  queue : VirtQueue
  /-- Popped and neither filled nor given back, the last one first. -/
  inflight : List VirtQueueElement := []
  /-- Filled and not yet flushed. -/
  filled : List VRingUsedElem := []
  /-- Flushed, in this order. -/
  pushed : List VRingUsedElem := []
  /-- The heads taken from the available ring, the last one first. -/
  heads : List UInt32 := []

/-- What a device model does next. An element is named by its place in `inflight`. -/
inductive SplitOp where
  | pop (guest : Guest)
  | push (position : Nat) (len : UInt32)
  /-- `virtqueue_fill`, behind the elements filled before it. -/
  | fill (position : Nat) (len : UInt32)
  /-- `virtqueue_flush` of all that is filled. -/
  | flush
  | unpop
  | rewind (num : UInt32)
  | dropAll (guests : List Guest)

/-- One operation. It is blocked where the device model would not make it: an element
it does not hold, a push or a drop between fill and flush, a rewind over elements it
has filled; and where the call does not return. -/
def SplitRun.next (s : SplitRun) : SplitOp → Option SplitRun
  | .pop guest =>
    match virtqueuePop guest s.queue with
    | .error _ => none
    | .ok (none, queue) => some { s with queue }
    | .ok (some elem, queue) =>
      some { s with
             queue, inflight := elem :: s.inflight, heads := elem.index :: s.heads }
  | .push position len =>
    match s.filled, s.inflight[position]? with
    | [], some elem =>
      (virtqueuePush s.queue elem len).toOption.map fun queue =>
        { s with
          queue
          inflight := s.inflight.eraseIdx position
          pushed := s.pushed ++ [{ id := elem.index, len }] }
    | _, _ => none
  | .fill position len =>
    s.inflight[position]?.bind fun elem =>
      (virtqueueFill s.queue elem len (UInt32.ofNat s.filled.length)).toOption.map fun queue =>
        { s with
          queue
          inflight := s.inflight.eraseIdx position
          filled := s.filled ++ [{ id := elem.index, len }] }
  | .flush =>
    (virtqueueFlush s.queue (UInt32.ofNat s.filled.length)).toOption.map fun queue =>
      { s with queue, filled := [], pushed := s.pushed ++ s.filled }
  | .unpop =>
    match s.inflight with
    | [] => none
    | elem :: inflight => some { s with queue := virtqueueUnpop s.queue elem, inflight }
  | .rewind num =>
    match virtqueueRewind s.queue num with
    | (false, queue) => some { s with queue }
    | (true, queue) =>
      if num.toNat ≤ s.inflight.length then
        some { s with queue, inflight := s.inflight.drop num.toNat }
      else none
  | .dropAll guests =>
    if s.filled = [] then
      (virtqueueDropAll 0 guests s.queue).toOption.map fun (dropped, queue) =>
        { s with
          queue
          pushed := s.pushed ++ dropped.map ({ id := ·, len := 0 })
          heads := dropped.reverse ++ s.heads }
    else none

def splitSystem (config : SplitConfig) : LabelledSystem SplitRun SplitOp :=
  .ofNext { queue := config.reset } SplitRun.next

/-! ### The invariant -/

variable {config : SplitConfig} {s t : SplitRun} {op : SplitOp}

/-- Nothing is ever popped from a queue of a disabled device, or without region caches. -/
def SplitConfig.Idle (config : SplitConfig) : Prop :=
  config.vdev.disabled = true ∨ config.vring.caches = none

/-- What holds of a run as long as the device is not broken. -/
structure SplitInv (config : SplitConfig) (s : SplitRun) : Prop where
  vring : s.queue.vring = config.vring
  vdev : s.queue.vdev = config.vdev
  idle : config.Idle →
    s.queue.lastAvailIdx = 0 ∧ s.queue.shadowAvailIdx = 0 ∧ s.queue.inuse = 0
  counters : s.queue.lastAvailIdx = s.queue.usedIdx + s.queue.inuse.toUInt16
  inuse_le : s.queue.inuse.toNat ≤ config.vring.num
  single : ∀ elem ∈ s.inflight, elem.ndescs = 1
  heads : ∀ head ∈ s.heads, head.toNat < config.vring.num
  held : s.inflight.length + s.filled.length ≤ s.queue.inuse.toNat
  outstanding : config.vring.used ≠ 0 →
    s.queue.inuse.toNat = s.inflight.length + s.filled.length
  published : config.vring.used ≠ 0 → s.queue.usedIdx.toNat = s.pushed.length % 2 ^ 16
  ringLength : s.queue.usedRing.length = config.vring.num
  slots : config.vring.used ≠ 0 → config.vring.num ∣ 2 ^ 16 →
    Ring.Holds s.queue.usedRing (s.pushed ++ s.filled)

theorem splitInv_reset (config : SplitConfig) : SplitInv config { queue := config.reset } where
  vring := rfl
  vdev := rfl
  idle := fun _ => ⟨rfl, rfl, rfl⟩
  counters := rfl
  inuse_le := Nat.zero_le _
  single := nofun
  heads := nofun
  held := Nat.le_refl _
  outstanding := fun _ => rfl
  published := fun _ => rfl
  ringLength := List.length_replicate
  slots := fun _ _ => Ring.holds_nil _

namespace SplitInv

section

variable (inv : SplitInv config s) {elem told : VirtQueueElement} {len : UInt32} {position : Nat}
  {queue : VirtQueue}
include inv

theorem inuse_small : s.queue.inuse.toNat ≤ 1024 :=
  Nat.le_trans inv.inuse_le config.num_le

/-- A device model that holds an element has a queue that works. -/
theorem busy_of_held (some : 0 < s.inflight.length + s.filled.length) : ¬config.Idle := by
  intro idle
  have held := inv.held
  rw [(inv.idle idle).2.2] at held
  change _ ≤ 0 at held
  omega

theorem unordered : s.queue.vdev.inOrder = false := by
  rw [inv.vdev, config.unordered]

theorem split : s.queue.vdev.ringPacked = false := by
  rw [inv.vdev, config.split]

theorem enabled_of_busy (busy : ¬config.Idle) : virtioDeviceDisabled s.queue.vdev = false := by
  rw [virtioDeviceDisabled, inv.vdev, config.working, Bool.or_false]
  exact Bool.eq_false_iff.mpr fun disabled => busy (Or.inl disabled)

theorem take (busy : ¬config.Idle) (room : s.queue.inuse.toNat < config.vring.num)
    (elem : VirtQueueElement) (inside : elem.index.toNat < config.vring.num)
    (single : elem.ndescs = 1) (shadow : UInt16) :
    SplitInv config
      { s with
        queue := { s.queue with
          shadowAvailIdx := shadow
          lastAvailIdx := s.queue.lastAvailIdx + 1
          inuse := s.queue.inuse + 1 }
        inflight := elem :: s.inflight
        heads := elem.index :: s.heads } := by
  have small := inv.inuse_small
  have grown : (s.queue.inuse + 1).toNat = s.queue.inuse.toNat + 1 := by
    rw [UInt32.toNat_add, UInt32.toNat_one]
    omega
  have held := inv.held
  refine ⟨inv.vring, inv.vdev, fun idle => (busy idle).elim, ?_, ?_, ?_, ?_, ?_, ?_,
    inv.published, inv.ringLength, inv.slots⟩
  · change s.queue.lastAvailIdx + 1 = s.queue.usedIdx + (s.queue.inuse + 1).toUInt16
    rw [inv.counters, UInt32.toUInt16_add, UInt16.add_assoc]
    rfl
  · change (s.queue.inuse + 1).toNat ≤ _
    omega
  · grind [SplitInv]
  · grind [SplitInv]
  · change s.inflight.length + 1 + s.filled.length ≤ (s.queue.inuse + 1).toNat
    omega
  · grind [SplitInv]

/-- The slot of the next element, by the elements pushed and filled before it. -/
theorem next_slot (ring : config.vring.used ≠ 0) (divides : config.vring.num ∣ 2 ^ 16) :
    (UInt32.ofNat s.filled.length + s.queue.usedIdx.toUInt32).toNat % s.queue.vring.num =
      (s.pushed ++ s.filled).length % s.queue.usedRing.length := by
  have small := inv.inuse_small
  have held := inv.held
  have usedSmall := s.queue.usedIdx.toNat_lt
  have value : (UInt32.ofNat s.filled.length + s.queue.usedIdx.toUInt32).toNat =
      s.filled.length + s.queue.usedIdx.toNat := by
    rw [UInt32.toNat_add, UInt32.toNat_ofNat', UInt16.toNat_toUInt32]
    omega
  rw [value, inv.vring, inv.ringLength, inv.published ring, List.length_append,
    Nat.add_comm s.pushed.length, Nat.add_mod, Nat.mod_mod_of_dvd _ divides, ← Nat.add_mod]

theorem fill (present : s.inflight[position]? = some elem)
    (done : virtqueueFill s.queue told len (UInt32.ofNat s.filled.length) = .ok queue)
    (same : told.index = elem.index) :
    SplitInv config
      { s with
        queue
        inflight := s.inflight.eraseIdx position
        filled := s.filled ++ [{ id := elem.index, len }] } := by
  obtain ⟨inside, -⟩ := List.getElem?_eq_some_iff.mp present
  have busy := inv.busy_of_held (by omega)
  have cached : s.queue.vring.caches ≠ none := by
    rw [inv.vring]
    exact fun missing => busy (Or.inr missing)
  have sameCount : (s.inflight.eraseIdx position).length +
      (s.filled ++ [VRingUsedElem.mk elem.index len]).length =
        s.inflight.length + s.filled.length := by
    rw [List.length_eraseIdx_of_lt inside, List.length_append, List.length_singleton]
    omega
  have single : ∀ other ∈ s.inflight.eraseIdx position, other.ndescs = 1 :=
    fun other member => inv.single other (List.mem_of_mem_eraseIdx member)
  rw [virtqueueFill_split (inv.enabled_of_busy busy) inv.unordered inv.split,
    virtqueueSplitFill] at done
  split at done
  next missing =>
    grind [SplitInv]
  next ring =>
    rw [vringUsedWrite_cached cached] at done
    cases done
    refine ⟨inv.vring, inv.vdev, inv.idle, inv.counters, inv.inuse_le, single, inv.heads,
      sameCount.le.trans inv.held, fun ring => (inv.outstanding ring).trans sameCount.symm,
      inv.published, ?_, fun ring divides => ?_⟩
    · exact List.length_set.trans inv.ringLength
    · rw [inv.next_slot ring divides, same, ← List.append_assoc]
      exact (inv.slots ring divides).write (by rw [inv.ringLength]; exact config.num_pos) _

/-- A flush by as many elements as are filled takes them out of `inuse`. -/
theorem inuse_sub_filled :
    (s.queue.inuse - UInt32.ofNat s.filled.length).toNat =
      s.queue.inuse.toNat - s.filled.length := by
  have small := inv.inuse_small
  have held := inv.held
  have count : (UInt32.ofNat s.filled.length).toNat = s.filled.length := by
    rw [UInt32.toNat_ofNat']
    omega
  rw [UInt32.toNat_sub_of_le _ _ (UInt32.le_iff_toNat_le.mpr (by omega)), count]

theorem flush (done : virtqueueFlush s.queue (UInt32.ofNat s.filled.length) = .ok queue) :
    SplitInv config { s with queue, filled := [], pushed := s.pushed ++ s.filled } := by
  have held := inv.held
  have shrunk := inv.inuse_sub_filled
  have slots : config.vring.used ≠ 0 → config.vring.num ∣ 2 ^ 16 →
      Ring.Holds s.queue.usedRing (s.pushed ++ s.filled ++ []) := by
    rw [List.append_nil]
    exact inv.slots
  cases disabled : virtioDeviceDisabled s.queue.vdev with
  | true =>
    -- Nothing was filled, so that nothing leaves `inuse`.
    have idle : config.Idle := by
      rw [virtioDeviceDisabled, inv.vdev, config.working, Bool.or_false] at disabled
      exact Or.inl disabled
    have nothing : s.filled = [] := by
      by_contra filled
      exact inv.busy_of_held (Nat.add_pos_right _ (List.length_pos_iff.mpr filled)) idle
    have same : s.queue.inuse - UInt32.ofNat s.filled.length = s.queue.inuse := by
      simp [nothing]
    rw [virtqueueFlush_disabled disabled, same] at done
    cases done
    refine ⟨inv.vring, inv.vdev, inv.idle, inv.counters, inv.inuse_le, inv.single, inv.heads,
      ?_, fun ring => ?_, fun ring => ?_, inv.ringLength, slots⟩
    · exact (Nat.le_add_right _ _).trans held
    · exact (inv.outstanding ring).trans (by simp [nothing])
    · exact (inv.published ring).trans (by simp [nothing])
  | false =>
    rw [virtqueueFlush_split disabled inv.unordered inv.split, virtqueueSplitFlush] at done
    split at done
    next missing =>
      grind [SplitInv]
    next ring =>
      cases done
      refine ⟨inv.vring, inv.vdev, fun idle => ?_, ?_, ?_, inv.single, inv.heads, ?_,
        fun ring => ?_, fun ring => ?_, inv.ringLength, slots⟩
      · obtain ⟨last, shadow, zero⟩ := inv.idle idle
        refine ⟨last, shadow, UInt32.toNat_inj.mp (shrunk.trans ?_)⟩
        rw [zero]
        exact Nat.zero_sub _
      · grind [SplitInv, UInt32.toUInt16_sub]
      · exact shrunk.le.trans ((Nat.sub_le _ _).trans inv.inuse_le)
      · change s.inflight.length + 0 ≤ (s.queue.inuse - UInt32.ofNat s.filled.length).toNat
        omega
      · grind [SplitInv]
      · have published := inv.published ring
        change (s.queue.usedIdx + (UInt32.ofNat s.filled.length).toUInt16).toNat =
          (s.pushed ++ s.filled).length % 2 ^ 16
        rw [UInt16.toNat_add, UInt32.toNat_toUInt16, UInt32.toNat_ofNat', published,
          List.length_append]
        omega

theorem push (nothing : s.filled = []) (present : s.inflight[position]? = some elem)
    (done : virtqueuePush s.queue told len = .ok queue) (same : told.index = elem.index) :
    SplitInv config
      { s with
        queue
        inflight := s.inflight.eraseIdx position
        pushed := s.pushed ++ [{ id := elem.index, len }] } := by
  obtain ⟨middle, filling, flushing⟩ := bind_eq_ok.mp done
  have first : virtqueueFill s.queue told len (UInt32.ofNat s.filled.length) = .ok middle := by
    rw [nothing]
    exact filling
  have filled := inv.fill present first same
  rw [nothing] at filled
  simpa only [nothing, List.nil_append] using filled.flush flushing

theorem giveBack (count : UInt32) (held : count.toNat ≤ s.inflight.length) :
    SplitInv config
      { s with
        queue := { s.queue with
          lastAvailIdx := s.queue.lastAvailIdx - count.toUInt16
          inuse := s.queue.inuse - count }
        inflight := s.inflight.drop count.toNat } := by
  have all := inv.held
  have shrunk : (s.queue.inuse - count).toNat = s.queue.inuse.toNat - count.toNat :=
    UInt32.toNat_sub_of_le _ _ (UInt32.le_iff_toNat_le.mpr (by omega))
  refine ⟨inv.vring, inv.vdev, fun idle => ?_, ?_, ?_, ?_, inv.heads, ?_, fun ring => ?_,
    inv.published, inv.ringLength, inv.slots⟩
  · obtain ⟨last, shadow, zero⟩ := inv.idle idle
    have none : count = 0 := by
      rw [zero] at all
      change _ ≤ 0 at all
      exact UInt32.toNat_inj.mp (show count.toNat = 0 by omega)
    subst none
    exact ⟨by rw [last]; rfl, shadow, by rw [zero]; rfl⟩
  · grind [SplitInv, UInt32.toUInt16_sub]
  · exact shrunk.le.trans ((Nat.sub_le _ _).trans inv.inuse_le)
  · exact fun elem member => inv.single elem (List.mem_of_mem_drop member)
  · grind
  · grind [SplitInv]

theorem remember {shadow : UInt16} (kept : config.Idle → shadow = s.queue.shadowAvailIdx) :
    SplitInv config { s with queue := { s.queue with shadowAvailIdx := shadow } } := by
  refine ⟨inv.vring, inv.vdev, fun idle => ?_, inv.counters, inv.inuse_le, inv.single, inv.heads,
    inv.held, inv.outstanding, inv.published, inv.ringLength, inv.slots⟩
  obtain ⟨last, zero, inuse⟩ := inv.idle idle
  exact ⟨last, (kept idle).trans zero, inuse⟩

theorem idle_iff :
    config.Idle ↔ virtioDeviceDisabled s.queue.vdev = true ∨ s.queue.vring.caches = none := by
  rw [SplitConfig.Idle, virtioDeviceDisabled, inv.vdev, inv.vring, config.working, Bool.or_false]

theorem uncached_of_idle (enabled : virtioDeviceDisabled s.queue.vdev = false)
    (idle : config.Idle) : s.queue.vring.caches = none :=
  (inv.idle_iff.mp idle).resolve_left (Bool.eq_false_iff.mp enabled)

end

/-- The turns of `virtqueue_split_drop_all`: each takes an element and pushes it. -/
theorem dropAll (guests : List Guest) (inv : SplitInv config s) (nothing : s.filled = [])
    {dropped : List UInt32} {queue : VirtQueue}
    (done : virtqueueSplitDropAll guests s.queue = .ok (dropped, queue)) :
    queue.vdev.broken = true ∨
      SplitInv config
        { s with
          queue
          pushed := s.pushed ++ dropped.map ({ id := ·, len := 0 })
          heads := dropped.reverse ++ s.heads } := by
  induction guests generalizing s dropped queue with
  | nil => cases done
  | cons guest rest ih =>
    rw [virtqueueSplitDropAll, virtioQueueSplitEmpty] at done
    rcases virtioQueueEmptyRcu_cases guest s.queue with
      empty | ⟨enabled, empty, shadow, tested, missing⟩
    · rw [empty] at done
      cases done
      simpa using Or.inr inv
    · rw [tested] at done
      dsimp only at done
      split at done
      · -- The queue is empty or full: the loop ends.
        cases done
        refine Or.inr ?_
        simpa using inv.remember fun idle => (missing (inv.uncached_of_idle enabled idle)).1
      next more =>
        split at done
        · cases done
          exact Or.inl rfl
        next head taken =>
          have inside := virtqueueGetHead_lt taken
          obtain ⟨available, room⟩ := not_or.mp more
          have busy : ¬config.Idle := by
            intro idle
            obtain ⟨last, shadowZero, -⟩ := inv.idle idle
            have uncached := inv.uncached_of_idle enabled idle
            exact available ((missing uncached).2 (shadowZero.trans last.symm) last)
          rw [inv.vring] at inside room
          have held := inv.take busy (Nat.lt_of_not_le room) { index := head, ndescs := 1 }
            inside rfl shadow
          obtain ⟨middle, pushing, others⟩ := bind_eq_ok.mp done
          obtain ⟨⟨later, last⟩, dropping, result⟩ := bind_eq_ok.mp others
          cases result
          have pushed := held.push nothing List.getElem?_cons_zero pushing rfl
          simpa using ih pushed nothing dropping

/-! ### Steps and runs -/

theorem next (inv : SplitInv config s)
    (taken : s.next op = some t) : t.queue.vdev.broken = true ∨ SplitInv config t := by
  cases op with
  | pop guest =>
    simp only [SplitRun.next] at taken
    split at taken
    · cases taken
    next queue popped =>
      cases taken
      rcases virtqueuePop_splitPopped inv.unordered inv.split popped with ⟨shadow, kept⟩ | broken
      · exact Or.inr (inv.remember fun idle => kept (inv.idle_iff.mp idle))
      · exact Or.inl broken
    next elem queue popped =>
      cases taken
      rcases virtqueuePop_splitPopped inv.unordered inv.split popped with
        _ | _ | ⟨shadow, enabled, cached, room, inside, single⟩
      rw [inv.vring] at room inside
      have busy : ¬config.Idle := fun idle => cached (inv.uncached_of_idle enabled idle)
      exact Or.inr (inv.take busy room elem inside single shadow)
  | push position len =>
    simp only [SplitRun.next] at taken
    split at taken
    next elem nothing present =>
      obtain ⟨queue, done, rfl⟩ := Option.map_eq_some_iff.mp taken
      exact Or.inr (inv.push nothing present (toOption_eq_some.mp done) rfl)
    · cases taken
  | fill position len =>
    obtain ⟨elem, present, filled⟩ := Option.bind_eq_some_iff.mp taken
    obtain ⟨queue, done, rfl⟩ := Option.map_eq_some_iff.mp filled
    exact Or.inr (inv.fill present (toOption_eq_some.mp done) rfl)
  | flush =>
    obtain ⟨queue, done, rfl⟩ := Option.map_eq_some_iff.mp taken
    exact Or.inr (inv.flush (toOption_eq_some.mp done))
  | unpop =>
    simp only [SplitRun.next] at taken
    split at taken
    · cases taken
    next elem inflight holds =>
      cases taken
      have single := inv.single elem (by rw [holds]; exact List.mem_cons_self)
      have back := inv.giveBack 1 (by rw [holds]; exact Nat.le_add_left _ _)
      rw [holds] at back
      rw [virtqueueUnpop, virtqueueDetachElement, inv.split, single]
      exact Or.inr back
  | rewind num =>
    simp only [SplitRun.next, virtqueueRewind] at taken
    split at taken
    next refused =>
      split at refused <;> cases refused
      cases taken
      exact Or.inr inv
    next queue accepted =>
      split at accepted <;> cases accepted
      split at taken
      next held =>
        cases taken
        rw [inv.split]
        exact Or.inr (inv.giveBack num held)
      · cases taken
  | dropAll guests =>
    simp only [SplitRun.next] at taken
    split at taken
    next nothing =>
      obtain ⟨⟨dropped, queue⟩, done, rfl⟩ := Option.map_eq_some_iff.mp taken
      have dropping := toOption_eq_some.mp done
      rw [virtqueueDropAll, inv.split] at dropping
      split at dropping
      · cases dropping
        simpa using Or.inr inv
      · exact inv.dropAll guests nothing dropping
    · cases taken

end SplitInv

theorem SplitRun.next_broken (broken : s.queue.vdev.broken = true)
    (taken : s.next op = some t) : t.queue.vdev.broken = true := by
  have disabled : virtioDeviceDisabled s.queue.vdev = true := by
    rw [virtioDeviceDisabled, broken, Bool.or_true]
  cases op with
  | pop guest =>
    simp only [SplitRun.next, virtqueuePop, disabled, if_true] at taken
    cases taken
    exact broken
  | push position len =>
    simp only [SplitRun.next, virtqueuePush, virtqueueFill_disabled disabled, bind_ok,
      virtqueueFlush_disabled disabled] at taken
    split at taken
    · cases taken
      exact broken
    · cases taken
  | fill position len =>
    obtain ⟨elem, -, filled⟩ := Option.bind_eq_some_iff.mp taken
    rw [virtqueueFill_disabled disabled] at filled
    cases filled
    exact broken
  | flush =>
    rw [SplitRun.next, virtqueueFlush_disabled disabled] at taken
    cases taken
    exact broken
  | unpop =>
    grind [SplitRun.next, virtqueueUnpop_vdev]
  | rewind num =>
    have same := virtqueueRewind_vdev s.queue num
    rw [SplitRun.next] at taken
    split at taken
    next queue result =>
      cases taken
      rw [result] at same
      rw [same, broken]
    next queue result =>
      grind
  | dropAll guests =>
    simp only [SplitRun.next, virtqueueDropAll, disabled, if_true] at taken
    split at taken
    · cases taken
      exact broken
    · cases taken

theorem splitInv_of_reached (reached : (splitSystem config).ReachedBy (fun _ _ => True) s)
    (unbroken : s.queue.vdev.broken = false) : SplitInv config s := by
  refine reached.invariant_unless (fun s => s.queue.vdev.broken = true) (SplitInv config) ?_ ?_ ?_
    (Bool.eq_false_iff.mp unbroken)
  · rintro start rfl
    exact splitInv_reset config
  · exact fun before _ _ broken taken => before.next_broken broken taken
  · exact fun _ _ _ inv _ taken => inv.next taken

end QemuGzvm.Virtio
