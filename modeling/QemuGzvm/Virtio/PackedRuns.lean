import QemuGzvm.Library.Transition
import QemuGzvm.Virtio.PackedCounters

/-!
Contract: the runs of a packed virtqueue without `VIRTIO_F_IN_ORDER`.

Owns:
- `PackedRun`, a queue with the elements its device model holds and has filled, and
  the operations a device model makes;
- `PackedKept`, the condition on operations under which the counters are right;
- `PackedInv`, which every operation that meets it keeps whatever the guest writes, as
  long as the device is not broken.
-/

namespace QemuGzvm.Virtio

open QemuGzvm.Library

/-! ### Runs -/

/-- A queue as it is set up: packed, without `VIRTIO_F_IN_ORDER`, with a size that
`virtio_queue_set_num` accepts. -/
structure PackedConfig where
  vring : VRing
  vdev : VirtIODevice := { ringPacked := true }
  usedElems : List VirtQueueElement := List.replicate vring.num {}
  num_pos : 0 < vring.num
  num_le : vring.num ≤ virtqueueMaxSize
  packed : vdev.ringPacked = true
  unordered : vdev.inOrder = false
  working : vdev.broken = false

def PackedConfig.reset (config : PackedConfig) : VirtQueue :=
  { vdev := config.vdev, vring := config.vring, usedElems := config.usedElems }

/-- A queue and the elements its device model has not flushed. -/
structure PackedRun where
  queue : VirtQueue
  /-- Popped and neither filled nor given back, the last one first. -/
  inflight : List VirtQueueElement := []
  filled : List VirtQueueElement := []

/-- What a device model does next. An element is named by its place in `inflight`. -/
inductive PackedOp where
  | pop (guest : Guest)
  | fill (position : Nat) (len : UInt32)
  | flush
  /-- `virtqueue_rewind` by `num`, to give back the `count` elements popped last. -/
  | rewind (count : Nat) (num : UInt32)
  /-- `fuel` bounds the chains that `virtqueue_drop_all` walks. -/
  | dropAll (fuel : Nat) (guests : List Guest)

/-- One operation. It is blocked where the device model would not make it and where
the call does not return. -/
def PackedRun.next (s : PackedRun) : PackedOp → Option PackedRun
  | .pop guest =>
    match virtqueuePop guest s.queue with
    | .error _ => none
    | .ok (none, queue) => some { s with queue }
    | .ok (some elem, queue) => some { s with queue, inflight := elem :: s.inflight }
  | .fill position len =>
    s.inflight[position]?.bind fun elem =>
      (virtqueueFill s.queue elem len (UInt32.ofNat s.filled.length)).toOption.map fun queue =>
        { s with
          queue, inflight := s.inflight.eraseIdx position, filled := s.filled ++ [elem] }
  | .flush =>
    (virtqueueFlush s.queue (UInt32.ofNat s.filled.length)).toOption.map fun queue =>
      { s with queue, filled := [] }
  | .rewind count num =>
    match virtqueueRewind s.queue num with
    | (false, queue) => some { s with queue }
    | (true, queue) =>
      if count ≤ s.inflight.length then
        some { s with queue, inflight := s.inflight.drop count }
      else none
  | .dropAll fuel guests =>
    if s.filled = [] then
      (virtqueueDropAll fuel guests s.queue).toOption.map fun (_, queue) => { s with queue }
    else none

def packedSystem (config : PackedConfig) : LabelledSystem PackedRun PackedOp :=
  .ofNext { queue := config.reset } PackedRun.next

/-- The descriptors of the element that a pop returns, if it returns one. -/
def ndescsPopped (guest : Guest) (vq : VirtQueue) : Nat :=
  match virtqueuePop guest vq with
  | .ok (some elem, _) => elem.ndescs.toNat
  | _ => 0

def droppedBy (fuel : Nat) (guests : List Guest) (vq : VirtQueue) : List UInt32 :=
  match virtqueueDropAll fuel guests vq with
  | .ok (dropped, _) => dropped
  | .error _ => []

/-- The condition on an operation: a popped chain fits beside the descriptors in use, a
flush has something to flush, a rewind counts the descriptors of the elements it gives
back, or is refused, and nothing is dropped. -/
def PackedKept (s : PackedRun) : PackedOp → Prop
  | .pop guest => s.queue.inuse.toNat + ndescsPopped guest s.queue ≤ s.queue.vring.num
  | .fill _ _ => True
  | .flush => s.filled ≠ []
  | .rewind count num => s.queue.inuse < num ∨ num.toNat = ndescsOf (s.inflight.take count)
  | .dropAll fuel guests => droppedBy fuel guests s.queue = []

instance (s : PackedRun) (op : PackedOp) : Decidable (PackedKept s op) :=
  match op with
  | .pop _ => inferInstanceAs (Decidable (_ ≤ _))
  | .fill _ _ => inferInstanceAs (Decidable True)
  | .flush => inferInstanceAs (Decidable (_ ≠ _))
  | .rewind _ _ => inferInstanceAs (Decidable (_ ∨ _))
  | .dropAll _ _ => inferInstanceAs (Decidable (_ = _))

/-! ### The invariant -/

variable {config : PackedConfig} {s t : PackedRun} {elem : VirtQueueElement}
  {elems : List VirtQueueElement} {position : Nat} {op : PackedOp} {queue : VirtQueue}

/-- What holds of a run as long as the device is not broken. -/
structure PackedInv (config : PackedConfig) (s : PackedRun) : Prop where
  vring : s.queue.vring = config.vring
  vdev : s.queue.vdev = config.vdev
  /-- Nothing is popped from a queue of a disabled device, or without a ring. -/
  idle : config.vdev.disabled = true ∨ config.vring.desc = 0 → s.inflight = [] ∧ s.filled = []
  avail_lt : (availCounter s.queue).index < config.vring.num
  used_lt : (usedCounter s.queue).index < config.vring.num
  inuse_eq : s.queue.inuse.toNat = ndescsOf s.inflight + ndescsOf s.filled
  inuse_le : s.queue.inuse.toNat ≤ config.vring.num
  positions : (availCounter s.queue).position config.vring.num ≡
    (usedCounter s.queue).position config.vring.num + s.queue.inuse.toNat
      [MOD 2 * config.vring.num]
  stored : Stored s.queue 0 s.filled
  positive : ∀ elem ∈ s.inflight ++ s.filled, 0 < elem.ndescs.toNat

theorem packedInv_reset (config : PackedConfig) :
    PackedInv config { queue := config.reset } where
  vring := rfl
  vdev := rfl
  idle := fun _ => ⟨rfl, rfl⟩
  avail_lt := config.num_pos
  used_lt := config.num_pos
  inuse_eq := rfl
  inuse_le := Nat.zero_le _
  positions := rfl
  stored := nofun
  positive := nofun

theorem ndescsOf_cons (elem : VirtQueueElement) (elems : List VirtQueueElement) :
    ndescsOf (elem :: elems) = elem.ndescs.toNat + ndescsOf elems :=
  List.sum_cons

theorem ndescsOf_append (front back : List VirtQueueElement) :
    ndescsOf (front ++ back) = ndescsOf front + ndescsOf back := by
  rw [ndescsOf, List.map_append, List.sum_append]
  rfl

theorem ndescsOf_eraseIdx (present : elems[position]? = some elem) :
    ndescsOf (elems.eraseIdx position) + elem.ndescs.toNat = ndescsOf elems := by
  induction elems generalizing position with
  | nil => cases present
  | cons first rest ih =>
    grind [List.eraseIdx_cons_zero, ndescsOf_cons]

theorem length_le_ndescsOf (positive : ∀ elem ∈ elems, 0 < elem.ndescs.toNat) :
    elems.length ≤ ndescsOf elems := by
  grind [ndescsOf, List.length_map, List.length_le_sum_of_one_le]

theorem mem_of_mem_fill {inflight filled : List VirtQueueElement} {other : VirtQueueElement}
    (present : inflight[position]? = some elem)
    (member : other ∈ inflight.eraseIdx position ++ (filled ++ [elem])) :
    other ∈ inflight ++ filled := by
  rcases List.mem_append.mp member with inFlight | filled
  · exact List.mem_append_left _ (List.mem_of_mem_eraseIdx inFlight)
  · grind

namespace PackedInv

section

variable (inv : PackedInv config s)
include inv

theorem unordered : s.queue.vdev.inOrder = false := by
  rw [inv.vdev, config.unordered]

theorem packed : s.queue.vdev.ringPacked = true := by
  rw [inv.vdev, config.packed]

theorem num_le : s.queue.vring.num ≤ virtqueueMaxSize := by
  rw [inv.vring]
  exact config.num_le

theorem enabled (some : s.inflight ≠ [] ∨ s.filled ≠ []) :
    virtioDeviceDisabled s.queue.vdev = false ∧ s.queue.vring.desc ≠ 0 := by
  have busy : ¬(config.vdev.disabled = true ∨ config.vring.desc = 0) := by
    grind [PackedInv]
  obtain ⟨able, ring⟩ := not_or.mp busy
  rw [virtioDeviceDisabled, inv.vdev, inv.vring, config.working, Bool.or_false]
  exact ⟨Bool.eq_false_iff.mpr able, ring⟩

theorem take (elem : VirtQueueElement) (positive : 0 < elem.ndescs.toNat)
    (busy : ¬(config.vdev.disabled = true ∨ config.vring.desc = 0))
    (fits : s.queue.inuse.toNat + elem.ndescs.toNat ≤ config.vring.num) :
    PackedInv config
      { s with queue := packedTake s.queue elem.ndescs, inflight := elem :: s.inflight } := by
  have numSmall := config.num_le
  unfold virtqueueMaxSize at numSmall
  have short : elem.ndescs.toNat ≤ s.queue.vring.num := by
    rw [inv.vring]
    omega
  have inside := inv.avail_lt
  rw [← inv.vring] at inside
  have moved : availCounter (packedTake s.queue elem.ndescs) =
      (availCounter s.queue).advance config.vring.num elem.ndescs.toNat := by
    rw [← inv.vring, ← availCounter_advance inv.num_le inside short]
    rfl
  have grown : (s.queue.inuse + elem.ndescs).toNat =
      s.queue.inuse.toNat + elem.ndescs.toNat := by
    rw [UInt32.toNat_add]
    omega
  have advanced := LapCounter.position_advance config.vring.num elem.ndescs.toNat
    (availCounter s.queue)
  have advancedLt := LapCounter.advance_index_lt inv.avail_lt (inv.vring ▸ short)
  obtain ⟨idx, wrap, framed⟩ := packedTake_frame s.queue elem.ndescs
  rw [← moved, framed] at advanced advancedLt
  rw [framed]
  refine ⟨inv.vring, inv.vdev, fun idle => (busy idle).elim, advancedLt, inv.used_lt, ?_, ?_, ?_,
    inv.stored, ?_⟩
  · grind [PackedInv, ndescsOf_cons]
  · exact grown.le.trans fits
  · have sum := advanced.trans (inv.positions.add_right elem.ndescs.toNat)
    rw [Nat.add_assoc, ← grown] at sum
    exact sum
  · grind [PackedInv]

theorem filled_le : s.filled.length ≤ s.queue.inuse.toNat := by
  have each := length_le_ndescsOf fun elem filled =>
    inv.positive elem (List.mem_append_right _ filled)
  have all := inv.inuse_eq
  omega

theorem fill {position : Nat} {elem : VirtQueueElement}
    (present : s.inflight[position]? = some elem) {len : UInt32}
    (done : virtqueueFill s.queue elem len (UInt32.ofNat s.filled.length) = .ok queue) :
    PackedInv config
      { s with
        queue, inflight := s.inflight.eraseIdx position, filled := s.filled ++ [elem] } := by
  have held : s.inflight ≠ [] := by
    intro none
    rw [none] at present
    cases present
  obtain ⟨enabled, ring⟩ := inv.enabled (Or.inl held)
  rw [virtqueueFill_packed enabled inv.unordered inv.packed, virtqueuePackedFill] at done
  obtain ⟨old, reading, result⟩ := bind_eq_ok.mp done
  have numSmall := config.num_le
  unfold virtqueueMaxSize at numSmall
  have few := inv.filled_le
  have inuseSmall := inv.inuse_le
  have place : (UInt32.ofNat s.filled.length).toNat = s.filled.length := by
    rw [UInt32.toNat_ofNat']
    omega
  rw [place] at reading result
  obtain ⟨inside, -⟩ := List.getElem?_eq_some_iff.mp (readAt_eq_ok.mp reading)
  have moved := ndescsOf_eraseIdx present
  cases result
  refine ⟨inv.vring, inv.vdev, fun idle => ?_, inv.avail_lt, inv.used_lt, ?_, inv.inuse_le,
    inv.positions, ?_, ?_⟩
  · exact (held (inv.idle idle).1).elim
  · have all := inv.inuse_eq
    have single : ndescsOf [elem] = elem.ndescs.toNat := by rw [ndescsOf_cons]; rfl
    change s.queue.inuse.toNat =
      ndescsOf (s.inflight.eraseIdx position) + ndescsOf (s.filled ++ [elem])
    rw [ndescsOf_append, single]
    omega
  · exact inv.stored.snoc inside rfl
  · intro other member
    exact inv.positive other (mem_of_mem_fill present member)

theorem flush (some : s.filled ≠ [])
    (done : virtqueueFlush s.queue (UInt32.ofNat s.filled.length) = .ok queue) :
    PackedInv config { s with queue, filled := [] } := by
  obtain ⟨enabled, ring⟩ := inv.enabled (Or.inr some)
  rw [virtqueueFlush_packed enabled inv.unordered inv.packed] at done
  have numSmall := config.num_le
  unfold virtqueueMaxSize at numSmall
  have few := inv.filled_le
  have inuseSmall := inv.inuse_le
  have all := inv.inuse_eq
  obtain ⟨total, descRing, sum, result⟩ := virtqueuePackedFlush_done some ring inv.stored
    (by omega) (by omega) done
  have shrunk : (s.queue.inuse - total).toNat = s.queue.inuse.toNat - total.toNat :=
    UInt32.toNat_sub_of_le _ _ (UInt32.le_iff_toNat_le.mpr (by omega))
  have short : total.toNat ≤ config.vring.num := by omega
  have moved : usedCounter queue =
      (usedCounter s.queue).advance config.vring.num total.toNat := by
    rw [result, ← inv.vring]
    exact usedCounter_advance inv.num_le (by rw [inv.vring]; exact inv.used_lt)
      (by rw [inv.vring]; exact short)
  have advanced := LapCounter.position_advance config.vring.num total.toNat (usedCounter s.queue)
  have advancedLt := LapCounter.advance_index_lt inv.used_lt short
  obtain ⟨idx, wrap, valid, framed⟩ :=
    packedAdvanceUsed_frame { s.queue with descRing, inuse := s.queue.inuse - total } total
  rw [← moved, result, framed] at advanced advancedLt
  rw [result, framed]
  refine ⟨inv.vring, inv.vdev, fun idle => ⟨(inv.idle idle).1, rfl⟩, inv.avail_lt, advancedLt, ?_,
    ?_, ?_, nofun, ?_⟩
  · change (s.queue.inuse - total).toNat = ndescsOf s.inflight + 0
    omega
  · exact shrunk.le.trans ((Nat.sub_le _ _).trans inuseSmall)
  · have same : total.toNat + (s.queue.inuse - total).toNat = s.queue.inuse.toNat := by omega
    refine inv.positions.trans ?_
    rw [← same, ← Nat.add_assoc]
    exact (advanced.add_right _).symm
  · grind [PackedInv]

/-- Giving back the elements popped last, by the descriptors they consumed. -/
theorem giveBack {count : Nat} {num : UInt32}
    (counted : num.toNat = ndescsOf (s.inflight.take count)) :
    PackedInv config
      { s with
        queue := virtqueuePackedRewind { s.queue with inuse := s.queue.inuse - num } num
        inflight := s.inflight.drop count } := by
  have inuseSmall := inv.inuse_le
  have all := inv.inuse_eq
  have parts : ndescsOf s.inflight =
      ndescsOf (s.inflight.take count) + ndescsOf (s.inflight.drop count) := by
    rw [← ndescsOf_append, List.take_append_drop]
  have shrunk : (s.queue.inuse - num).toNat = s.queue.inuse.toNat - num.toNat :=
    UInt32.toNat_sub_of_le _ _ (UInt32.le_iff_toNat_le.mpr (by omega))
  have short : num.toNat ≤ config.vring.num := by omega
  have moved : availCounter
      (virtqueuePackedRewind { s.queue with inuse := s.queue.inuse - num } num) =
        (availCounter s.queue).retreat config.vring.num num.toNat := by
    rw [← inv.vring]
    exact availCounter_rewind inv.num_le (by rw [inv.vring]; exact inv.avail_lt)
      (by rw [inv.vring]; exact short)
  have retreated := LapCounter.position_retreat short (availCounter s.queue)
  have retreatedLt := LapCounter.retreat_index_lt num.toNat inv.avail_lt
  obtain ⟨idx, wrap, framed⟩ :=
    virtqueuePackedRewind_frame { s.queue with inuse := s.queue.inuse - num } num
  rw [← moved, framed] at retreated retreatedLt
  rw [framed]
  refine ⟨inv.vring, inv.vdev, fun idle => ?_, retreatedLt, inv.used_lt, ?_, ?_, ?_, inv.stored,
    ?_⟩
  · obtain ⟨noneHeld, noneFilled⟩ := inv.idle idle
    exact ⟨by rw [noneHeld, List.drop_nil], noneFilled⟩
  · change (s.queue.inuse - num).toNat = ndescsOf (s.inflight.drop count) + ndescsOf s.filled
    omega
  · exact shrunk.le.trans ((Nat.sub_le _ _).trans inuseSmall)
  · -- Both sides after adding back what was given back.
    have same : (s.queue.inuse - num).toNat + num.toNat = s.queue.inuse.toNat := by omega
    apply Nat.ModEq.add_right_cancel' num.toNat
    rw [Nat.add_assoc, same]
    exact retreated.trans inv.positions
  · grind [PackedInv]

/-! ### Steps and runs -/

theorem next (kept : PackedKept s op) (taken : s.next op = some t) :
    t.queue.vdev.broken = true ∨ PackedInv config t := by
  cases op with
  | pop guest =>
    simp only [PackedRun.next] at taken
    simp only [PackedKept, ndescsPopped] at kept
    split at taken
    · cases taken
    next queue popped =>
      cases taken
      obtain ⟨outcome, -⟩ := virtqueuePop_packedPopped inv.unordered inv.packed inv.num_le popped
      rcases outcome with _ | broken
      · exact Or.inr inv
      · exact Or.inl broken
    next elem queue popped =>
      cases taken
      rw [popped, inv.vring] at kept
      obtain ⟨outcome, enabled⟩ :=
        virtqueuePop_packedPopped inv.unordered inv.packed inv.num_le popped
      rcases outcome with _ | _ | ⟨ring, -, positive, -⟩
      refine Or.inr (inv.take elem positive (fun idle => ?_) kept)
      rcases idle with disabled | missing
      · have able := enabled (Option.some_ne_none _)
        rw [virtioDeviceDisabled, inv.vdev, disabled] at able
        cases able
      · rw [inv.vring] at ring
        exact ring missing
  | fill position len =>
    obtain ⟨elem, present, filled⟩ := Option.bind_eq_some_iff.mp taken
    obtain ⟨queue, done, rfl⟩ := Option.map_eq_some_iff.mp filled
    exact Or.inr (inv.fill present (toOption_eq_some.mp done))
  | flush =>
    obtain ⟨queue, done, rfl⟩ := Option.map_eq_some_iff.mp taken
    exact Or.inr (inv.flush kept (toOption_eq_some.mp done))
  | rewind count num =>
    simp only [PackedRun.next, virtqueueRewind] at taken
    split at taken
    next refused =>
      split at refused <;> cases refused
      cases taken
      exact Or.inr inv
    next queue accepted =>
      split at accepted
      · cases accepted
      next enough =>
        cases accepted
        split at taken
        · cases taken
          simp only [inv.packed, if_true]
          exact Or.inr (inv.giveBack (kept.resolve_left enough))
        · cases taken
  | dropAll fuel guests =>
    simp only [PackedRun.next] at taken
    split at taken
    next nothing =>
      obtain ⟨⟨dropped, queue⟩, done, rfl⟩ := Option.map_eq_some_iff.mp taken
      have dropping := toOption_eq_some.mp done
      simp only [PackedKept, droppedBy, dropping] at kept
      subst kept
      rw [virtqueueDropAll_nothing inv.packed dropping]
      exact Or.inr inv
    · cases taken

end

end PackedInv

theorem PackedRun.next_disabled
    (disabled : virtioDeviceDisabled s.queue.vdev = true) (taken : s.next op = some t) :
    t.queue.vdev = s.queue.vdev := by
  cases op with
  | pop guest =>
    simp only [PackedRun.next, virtqueuePop, disabled, if_true] at taken
    cases taken
    rfl
  | fill position len =>
    obtain ⟨elem, -, filled⟩ := Option.bind_eq_some_iff.mp taken
    rw [virtqueueFill_disabled disabled] at filled
    cases filled
    rfl
  | flush =>
    rw [PackedRun.next, virtqueueFlush_disabled disabled] at taken
    cases taken
    rfl
  | rewind count num =>
    have same := virtqueueRewind_vdev s.queue num
    rw [PackedRun.next] at taken
    split at taken
    next queue result =>
      cases taken
      rw [result] at same
      exact same
    next queue result =>
      grind
  | dropAll fuel guests =>
    simp only [PackedRun.next, virtqueueDropAll, disabled, if_true] at taken
    split at taken
    · cases taken
      rfl
    · cases taken

theorem packedInv_of_reached (reached : (packedSystem config).ReachedBy PackedKept s)
    (unbroken : s.queue.vdev.broken = false) : PackedInv config s := by
  refine reached.invariant_unless (fun s => s.queue.vdev.broken = true) (PackedInv config) ?_ ?_ ?_
    (Bool.eq_false_iff.mp unbroken)
  · rintro start rfl
    exact packedInv_reset config
  · intro before op after broken taken
    rw [before.next_disabled (by rw [virtioDeviceDisabled, broken, Bool.or_true]) taken]
    exact broken
  · exact fun _ _ _ inv kept taken => inv.next kept taken

end QemuGzvm.Virtio
