import QemuGzvm.Virtio.UsedElems

/-!
Contract: no call on a virtqueue leaves `used_elems` in a run that keeps to the condition.

Owns:
- that a fill and a flush stay inside the array and keep the invariant, in each layout;
- `usedElems_inside_of_kept`, that this holds of every state reached and every operation
  there;
- runs that leave the array: a size above the one the array was made for, and the walk of
  an in-order fill across the end of the ring.
-/

namespace QemuGzvm.Virtio

open QemuGzvm.Library

variable {size : Nat} {s : PackedRun} {elem : VirtQueueElement} {position base : Nat}
  {window : List OrderedElem} {op : QueueOp} {t : PackedRun}

/-! ### Fills -/

theorem heldCount_eraseIdx {inflight : List VirtQueueElement}
    (present : inflight[position]? = some elem) (index : UInt32) :
    heldCount (inflight.eraseIdx position) index + (if elem.index = index then 1 else 0) =
      heldCount inflight index := by
  obtain ⟨inside, rfl⟩ := List.getElem?_eq_some_iff.mp present
  have same := (List.getElem_cons_eraseIdx_perm inside).countP_eq
    fun elem : VirtQueueElement => elem.index == index
  rw [List.countP_cons] at same
  simp only [beq_iff_eq] at same
  exact same

theorem waitingCount_set {place : Nat} {item : OrderedElem} (present : window[place]? = some item)
    (len : UInt32) (index : UInt32) :
    waitingCount window index ≤
      waitingCount (window.set place { item with pushed := some len }) index +
        (if item.elem.index = index then 1 else 0) := by
  obtain ⟨inside, rfl⟩ := List.getElem?_eq_some_iff.mp present
  unfold waitingCount
  rw [List.countP_set inside]
  simp only [Option.isNone_some, Bool.false_and, Bool.false_eq_true, if_false, Bool.and_eq_true,
    beq_iff_eq]
  split
  next waits =>
    rw [if_pos waits.2]
    omega
  · omega

theorem WindowPacked.head (carries : WindowPacked s base window) :
    s.queue.usedIdx.toNat % s.queue.vring.num = base % s.queue.vring.num := by
  have position : s.queue.usedIdx.toNat = base % s.queue.vring.num :=
    congrArg LapCounter.index carries.used
  rw [position, Nat.mod_mod]

/-- A fill of a packed in-order queue marks an element in flight with the index of the
one it was called for, or none. -/
theorem WindowPacked.fill (carries : WindowPacked s base window) (numPos : 0 < s.queue.vring.num)
    (present : s.inflight[position]? = some elem) {len : UInt32} {queue : VirtQueue}
    (done : virtqueueOrderedFill s.queue elem len = .ok queue) :
    ∃ window, WindowPacked
      { queue, inflight := s.inflight.eraseIdx position, filled := s.filled ++ [elem] }
      base window := by
  obtain ⟨usedElems, searched, eq⟩ := bind_eq_ok.mp done
  cases eq
  have short : ∀ item ∈ window, item.slots ≤ s.queue.vring.num := fun item member =>
    (RingWindow.len_le_extent member).trans carries.inFlight.fits
  have found : ∃ item ∈ window, item.elem.index = elem.index := by
    have held := heldCount_eraseIdx present elem.index
    rw [if_pos rfl] at held
    have waits := carries.waiting elem.index
    obtain ⟨item, member, waiting⟩ := List.countP_pos_iff.mp
      (show 0 < waitingCount window elem.index by omega)
    rw [Bool.and_eq_true, beq_iff_eq] at waiting
    exact ⟨item, member, waiting.2⟩
  rw [carries.head] at searched
  rcases orderedFillSearch_window numPos carries.inFlight.item short found searched with
    rfl | ⟨place, item, inWindow, same, -, -, rfl⟩
  · refine ⟨window, carries.inFlight, carries.used, carries.avail, carries.inuse, fun index => ?_⟩
    have held := heldCount_eraseIdx present index
    have waits := carries.waiting index
    change heldCount (s.inflight.eraseIdx position) index ≤ _
    omega
  · have held : descsOf (window.set place { item with pushed := some len }) = descsOf window :=
      RingWindow.extent_set inWindow rfl
    refine ⟨window.set place { item with pushed := some len },
      inFlight_fill carries.inFlight inWindow len, carries.used, ?_, ?_, fun index => ?_⟩
    · rw [held]
      exact carries.avail
    · rw [held]
      exact carries.inuse
    · have erased := heldCount_eraseIdx present index
      have marked := waitingCount_set inWindow len index
      have waits := carries.waiting index
      rw [same] at marked
      change heldCount (s.inflight.eraseIdx position) index ≤ _
      omega

section Fill

variable {len : UInt32}

theorem PlainPacked.fill (plain : PlainPacked s)
    (small : s.queue.usedElems.length ≤ virtqueueMaxSize)
    (present : s.inflight[position]? = some elem) :
    Inside
      (fun queue => SameShape s.queue queue ∧ PlainPacked
        { queue, inflight := s.inflight.eraseIdx position, filled := s.filled ++ [elem] })
      (virtqueuePackedFill s.queue elem len (UInt32.ofNat s.filled.length)) := by
  have inside : s.filled.length < s.queue.usedElems.length := by
    have held := (List.getElem?_eq_some_iff.mp present).1
    have count := plain.count
    omega
  have place : (UInt32.ofNat s.filled.length).toNat = s.filled.length := by
    unfold virtqueueMaxSize at small
    rw [UInt32.toNat_ofNat']
    omega
  unfold virtqueuePackedFill
  rw [place]
  apply Inside.read inside
  intro old _
  refine ⟨⟨List.length_set, rfl, rfl⟩, fun missing => ?_, ?_, plain.stored.snoc inside rfl,
    fun other member => plain.positive other (mem_of_mem_fill present member), ?_⟩
  · rw [(plain.idle missing).1] at present
    cases present
  · have moved := ndescsOf_eraseIdx present
    have all := plain.inuse
    change s.queue.inuse.toNat =
      ndescsOf (s.inflight.eraseIdx position) + ndescsOf (s.filled ++ [elem])
    rw [ndescsOf_append, ndescsOf_cons]
    change _ = _ + (_ + (_ + 0))
    omega
  · grind [PlainPacked]

theorem BoundsInv.fill (inv : BoundsInv size s)
    (enabled : virtioDeviceDisabled s.queue.vdev = false)
    (present : s.inflight[position]? = some elem) (kept : BoundsKept s (.fill position len)) :
    Inside
      (fun queue => BoundsInv size
        { queue, inflight := s.inflight.eraseIdx position, filled := s.filled ++ [elem] })
      (virtqueueFill s.queue elem len (UInt32.ofNat s.filled.length)) := by
  have nonzero : s.queue.vring.num ≠ 0 := by
    intro none
    rw [(inv.empty none).1] at present
    cases present
  cases order : s.queue.vdev.inOrder with
  | false =>
    cases layout : s.queue.vdev.ringPacked with
    | false =>
      rw [virtqueueFill_split enabled order layout]
      obtain ⟨usedRing, framed⟩ := virtqueueSplitFill_frame s.queue elem len
        (UInt32.ofNat s.filled.length)
      rw [framed]
      exact inv.step_plainSplit ⟨rfl, rfl, rfl⟩ nonzero order layout
    | true =>
      rw [virtqueueFill_packed enabled order layout]
      apply ((inv.plain order layout).fill (inv.length.symm ▸ inv.small) present).mono
      intro queue ⟨same, plain⟩
      exact inv.step_plainPacked same nonzero order plain
  | true =>
    rw [virtqueueFill_ordered enabled order]
    have inside := virtqueueOrderedFill_inside len (kept order elem present)
    cases done : virtqueueOrderedFill s.queue elem len with
    | error fault =>
      rw [done] at inside
      exact inside
    | ok queue =>
      obtain ⟨usedElems, framed, lengths⟩ := inside.of_eq_ok done
      have length := congrArg List.length lengths
      rw [List.length_map, List.length_map] at length
      refine inv.step_ordered ?_ nonzero order (fun split => ?_) (fun packed => ?_)
      · rw [framed]
        exact ⟨length, rfl, rfl⟩
      · rw [framed]
        exact short_of_map_ndescs lengths (inv.single order split)
      · have numPos := Nat.pos_of_ne_zero nonzero
        obtain ⟨base, window, carries⟩ := inv.window order packed numPos
        exact ⟨base, carries.fill numPos present done⟩

end Fill

/-! ### Flushes -/

theorem SameEntries.shape {vq after : VirtQueue} (same : SameEntries vq after) :
    SameShape vq after := by
  have length := congrArg List.length same.usedElems
  rw [List.length_map, List.length_map] at length
  exact ⟨length, same.vring, same.vdev⟩

/-- The flush of a packed queue reads one entry for each element filled, and the elements
held stay as they are. -/
theorem PlainPacked.flush (plain : PlainPacked s)
    (small : s.queue.usedElems.length ≤ virtqueueMaxSize) (some : s.filled ≠ []) :
    Inside (fun queue => SameShape s.queue queue ∧ PlainPacked { s with queue, filled := [] })
      (virtqueuePackedFlush s.queue (UInt32.ofNat s.filled.length)) := by
  have count := plain.count
  have all := plain.inuse
  have bound := s.queue.inuse.toNat_lt
  have turns := List.length_pos_iff.mpr some
  have few : s.filled.length < 2 ^ 32 := by
    unfold virtqueueMaxSize at small
    omega
  have place : (UInt32.ofNat s.filled.length).toNat = s.filled.length := by
    rw [UInt32.toNat_ofNat']
    omega
  have ring : s.queue.vring.desc ≠ 0 := fun missing => some (plain.idle missing).2
  have inside : Inside _ (virtqueuePackedFlush s.queue (UInt32.ofNat s.filled.length)) :=
    virtqueuePackedFlush_inside (by omega) (by omega)
  cases done : virtqueuePackedFlush s.queue (UInt32.ofNat s.filled.length) with
  | error fault =>
    rw [done] at inside
    exact inside
  | ok queue =>
    obtain ⟨total, descRing, sum, rfl⟩ := virtqueuePackedFlush_done some ring plain.stored few
      (by omega) done
    have shrunk : (s.queue.inuse - total).toNat = s.queue.inuse.toNat - total.toNat :=
      UInt32.toNat_sub_of_le _ _ (UInt32.le_iff_toNat_le.mpr (by omega))
    obtain ⟨idx, wrap, valid, framed⟩ :=
      packedAdvanceUsed_frame { s.queue with descRing, inuse := s.queue.inuse - total } total
    rw [framed]
    refine ⟨⟨rfl, rfl, rfl⟩, fun missing => (ring missing).elim, ?_, nofun, ?_, ?_⟩
    · change (s.queue.inuse - total).toNat = ndescsOf s.inflight + 0
      omega
    · grind [PlainPacked]
    · exact (Nat.le_add_right _ _).trans count

/-- No element that waits leaves with a flush. -/
theorem waitingCount_remaining (window : List OrderedElem) (index : UInt32) :
    waitingCount (remaining window) index = waitingCount window index := by
  have none : waitingCount (completed window) index = 0 := by
    apply List.countP_eq_zero.mpr
    intro item member waiting
    have pushed := isSome_of_mem_completed member
    rw [Bool.and_eq_true, Option.isNone_iff_eq_none] at waiting
    rw [waiting.1] at pushed
    cases pushed
  have parts := congrArg (waitingCount · index) (completed_append_remaining window)
  simp only [waitingCount, List.countP_append] at parts none ⊢
  omega

/-- The flush of a packed in-order queue ends and moves the window past the elements
that are completed. -/
theorem WindowPacked.flush (carries : WindowPacked s base window)
    (packed : s.queue.vdev.ringPacked = true) (numPos : 0 < s.queue.vring.num)
    (covers : s.queue.vring.num ≤ s.queue.usedElems.length)
    (small : s.queue.usedElems.length ≤ virtqueueMaxSize) :
    ∃ queue, virtqueueOrderedFlush s.queue = .ok queue ∧ SameShape s.queue queue ∧
      ∃ base window, WindowPacked { s with queue, filled := [] } base window := by
  by_cases missing : s.queue.vring.desc = 0
  · refine ⟨s.queue, ?_, ⟨rfl, rfl, rfl⟩, base, window, carries.inFlight, carries.used,
      carries.avail, carries.inuse, carries.waiting⟩
    unfold virtqueueOrderedFlush
    rw [packed]
    exact if_pos missing
  · obtain ⟨queue, done, flushed⟩ := virtqueueOrderedFlush_done numPos (covers.trans small)
      (fun _ => ⟨missing, carries.used⟩) covers carries.inFlight
      (fun split => by rw [packed] at split; cases split) carries.head carries.inuse.ge
    have parts := descsOf_completed_add window
    have inuse := flushed.inuse
    have held := carries.inuse
    refine ⟨queue, done, ⟨flushed.covers, flushed.vring, flushed.vdev⟩,
      base + descsOf (completed window), remaining window, ?_, ?_, ?_, ?_, fun index => ?_⟩
    · rw [flushed.vring]
      exact flushed.inFlight
    · rw [flushed.vring]
      exact flushed.usedCounter packed
    · rw [flushed.vring, Nat.add_assoc, parts]
      exact flushed.avail.trans carries.avail
    · change queue.inuse.toNat = _
      omega
    · rw [waitingCount_remaining]
      exact carries.waiting index

theorem BoundsInv.flush (inv : BoundsInv size s)
    (enabled : virtioDeviceDisabled s.queue.vdev = false) (kept : BoundsKept s .flush) :
    Inside (fun queue => BoundsInv size { s with queue, filled := [] })
      (virtqueueFlush s.queue (UInt32.ofNat s.filled.length)) := by
  obtain ⟨nonzero, batch⟩ := kept
  have numPos := Nat.pos_of_ne_zero nonzero
  have covers : s.queue.vring.num ≤ s.queue.usedElems.length := inv.length.symm ▸ inv.covers
  have small : s.queue.usedElems.length ≤ virtqueueMaxSize := inv.length.symm ▸ inv.small
  cases order : s.queue.vdev.inOrder with
  | false =>
    cases layout : s.queue.vdev.ringPacked with
    | false =>
      rw [virtqueueFlush_split enabled order layout, virtqueueSplitFlush]
      split
      · exact inv.step_plainSplit ⟨rfl, rfl, rfl⟩ nonzero order layout
      · exact inv.step_plainSplit ⟨rfl, rfl, rfl⟩ nonzero order layout
    | true =>
      rw [virtqueueFlush_packed enabled order layout]
      apply ((inv.plain order layout).flush small (batch order layout)).mono
      intro queue ⟨same, plain⟩
      exact inv.step_plainPacked same nonzero order plain
  | true =>
    rw [virtqueueFlush_ordered enabled order]
    cases layout : s.queue.vdev.ringPacked with
    | false =>
      have single := inv.single order layout
      apply (virtqueueOrderedFlush_split_inside layout numPos covers single).mono
      intro queue same
      apply inv.step_ordered same.shape nonzero order
      · exact fun _ => short_of_map_ndescs same.ndescs single
      · exact fun packed => absurd packed (Bool.eq_false_iff.mp layout)
    | true =>
      obtain ⟨base, window, carries⟩ := inv.window order layout numPos
      obtain ⟨queue, done, same, moved⟩ := carries.flush layout numPos covers small
      rw [done]
      apply inv.step_ordered same nonzero order
      · exact fun split => absurd layout (Bool.eq_false_iff.mp split)
      · exact fun _ => moved

/-! ### Runs -/

theorem BoundsInv.next (inv : BoundsInv size s)
    (enabled : virtioDeviceDisabled s.queue.vdev = false) (kept : BoundsKept s op)
    (taken : QueueOp.next s op = some t) :
    virtioDeviceDisabled t.queue.vdev = true ∨ BoundsInv size t := by
  cases op with
  | setNum num =>
    cases taken
    exact .inr (inv.setNum kept)
  | pop guest =>
    rw [QueueOp.next, PackedRun.next] at taken
    split at taken
    next => cases taken
    next queue popped =>
      cases taken
      rcases inv.pop_none popped with broken | holds
      · left
        rw [virtioDeviceDisabled, broken, Bool.or_true]
      · exact .inr holds
    next elem queue popped =>
      cases taken
      right
      cases order : s.queue.vdev.inOrder with
      | false => exact inv.pop_plain order popped
      | true =>
        apply inv.pop_ordered order _ popped
        intro packed
        have fits := kept order packed
        rw [ndescsPopped, popped] at fits
        exact fits
  | fill position len =>
    obtain ⟨elem, present, filled⟩ := Option.bind_eq_some_iff.mp taken
    obtain ⟨queue, done, rfl⟩ := Option.map_eq_some_iff.mp filled
    exact .inr ((inv.fill enabled present kept).of_eq_ok (toOption_eq_some.mp done))
  | flush =>
    obtain ⟨queue, done, rfl⟩ := Option.map_eq_some_iff.mp taken
    exact .inr ((inv.flush enabled kept).of_eq_ok (toOption_eq_some.mp done))

theorem QueueOp.next_disabled (disabled : virtioDeviceDisabled s.queue.vdev = true)
    (taken : QueueOp.next s op = some t) :
    t.queue.vdev = s.queue.vdev := by
  cases op with
  | setNum num =>
    cases taken
    obtain ⟨size, changed, -⟩ := virtioQueueSetNum_cases s.queue num
    rw [changed]
  | pop guest =>
    change s.next (.pop guest) = some t at taken
    exact s.next_disabled disabled taken
  | fill position len =>
    change s.next (.fill position len) = some t at taken
    exact s.next_disabled disabled taken
  | flush =>
    change s.next .flush = some t at taken
    exact s.next_disabled disabled taken

theorem boundsInv_of_reached {config : QueueConfig}
    (reached : (queueSystem config).ReachedBy BoundsKept s)
    (enabled : virtioDeviceDisabled s.queue.vdev = false) : BoundsInv config.queueSize s := by
  have stays : ∀ (before : PackedRun) (op : QueueOp) (after : PackedRun),
      virtioDeviceDisabled before.queue.vdev = true → QueueOp.next before op = some after →
        virtioDeviceDisabled after.queue.vdev = true := by
    grind [QueueOp.next_disabled]
  apply reached.invariant_unless (fun s => virtioDeviceDisabled s.queue.vdev = true)
    (BoundsInv config.queueSize) _ stays _ (Bool.eq_false_iff.mp enabled)
  · rintro start rfl
    exact boundsInv_added config
  · intro before op after inv kept taken
    cases able : virtioDeviceDisabled before.queue.vdev with
    | true => exact .inl (stays before op after able taken)
    | false => exact inv.next able kept taken

/-- No call on a queue of a disabled device looks at the array. -/
theorem not_leavesArray_of_disabled (disabled : virtioDeviceDisabled s.queue.vdev = true)
    (op : QueueOp) : ¬LeavesArray s op := by
  cases op with
  | setNum num => exact id
  | pop guest =>
    simp only [LeavesArray, virtqueuePop, disabled, if_true]
    intro left
    cases left
  | fill position len =>
    rintro ⟨elem, -, left⟩
    rw [virtqueueFill_disabled disabled] at left
    cases left
  | flush =>
    rw [LeavesArray, virtqueueFlush_disabled disabled]
    intro left
    cases left

theorem BoundsInv.not_leavesArray (inv : BoundsInv size s)
    (enabled : virtioDeviceDisabled s.queue.vdev = false) (kept : BoundsKept s op) :
    ¬LeavesArray s op := by
  cases op with
  | setNum num => exact id
  | pop guest => exact (inv.pop_inside guest).ne_outOfBounds
  | fill position len =>
    rintro ⟨elem, present, left⟩
    exact (inv.fill enabled present kept).ne_outOfBounds left
  | flush => exact (inv.flush enabled kept).ne_outOfBounds

end QemuGzvm.Virtio
