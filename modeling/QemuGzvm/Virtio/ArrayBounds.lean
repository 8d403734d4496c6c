import QemuGzvm.Virtio.OrderedFlush
import QemuGzvm.Virtio.OrderedPop
import QemuGzvm.Virtio.RingContent

/-!
Contract: which entries of `used_elems` a call on a virtqueue reads and writes.

Owns:
- `Inside`, computations that never leave an array;
- that a pop leaves an array only with the record of an in-order queue;
- `walkInside`, when the walk of `virtqueue_ordered_fill` stays inside `used_elems`, and
  that the call then does;
- that the loop of `virtqueue_ordered_flush` stays inside as long as no entry is longer
  than the ring.
-/

namespace QemuGzvm.Virtio

open QemuGzvm.Library

/-! ### Computations inside their arrays -/

section Inside

variable {α β : Type} {post : α → Prop} {after : β → Prop}

/-- The computation gives a value with the property or stops, but not outside an array. -/
def Inside (post : α → Prop) : Checked α → Prop
  | .ok value => post value
  | .error fault => fault ≠ .outOfBounds

variable {computation : Checked α}

theorem Inside.bind {next : α → Checked β} (first : Inside post computation)
    (second : ∀ value, post value → Inside after (next value)) :
    Inside after (computation.bind next) := by
  match computation, first with
  | .ok value, holds => exact second value holds
  | .error _, other => exact other

section

variable (inside : Inside post computation)
include inside

theorem Inside.mono {weaker : α → Prop} 
    (weaken : ∀ value, post value → weaker value) : Inside weaker computation := by
  match computation, inside with
  | .ok value, holds => exact weaken value holds
  | .error _, other => exact other

theorem Inside.of_eq_ok {value : α} (returned : computation = .ok value) : post value := by
  rw [returned] at inside
  exact inside

theorem Inside.ne_outOfBounds :
    computation ≠ .error .outOfBounds := by
  intro failed
  rw [failed] at inside
  exact inside rfl

end

theorem Inside.read {cells : List α} {index : Nat} {next : α → Checked β}
    (inside : index < cells.length) (second : ∀ cell ∈ cells, Inside after (next cell)) :
    Inside after ((readAt cells index).bind next) := by
  rw [readAt_of_getElem? (List.getElem?_eq_getElem inside), bind_ok]
  exact second _ (List.getElem_mem inside)

/-- The same for the collection of an element. -/
def CollectsInside (post : α → Prop) : Except Stop α → Prop
  | .ok value => post value
  | .error (.report _) => True
  | .error (.fault fault) => fault ≠ .outOfBounds

theorem CollectsInside.bind {computation : Except Stop α} {next : α → Except Stop β}
    (first : CollectsInside post computation)
    (second : ∀ value, post value → CollectsInside after (next value)) :
    CollectsInside after (computation.bind next) := by
  match computation, first with
  | .ok value, holds => exact second value holds
  | .error (.report _), _ => trivial
  | .error (.fault _), other => exact other

theorem CollectsInside.map {computation : Except Stop α} {f : α → β}
    (first : CollectsInside post computation) (second : ∀ value, post value → after (f value)) :
    CollectsInside after (computation.map f) := by
  match computation, first with
  | .ok value, holds => exact second value holds
  | .error (.report _), _ => trivial
  | .error (.fault _), other => exact other

theorem Collects.inside {computation : Except Stop α} (collects : Collects post computation) :
    CollectsInside post computation := by
  match computation, collects with
  | .ok value, holds => exact holds
  | .error (.report _), _ => trivial

end Inside

/-! ### Pops -/

theorem readDescCached_collectsInside {Desc : Type} (mapped : Nat) (table : Nat → Nat → Desc)
    (reads i : Nat) :
    CollectsInside (fun _ => True) ((readDescCached mapped table reads i).mapError .fault) := by
  unfold readDescCached
  split
  · exact Fault.noConfusion
  · trivial

theorem packedReadNext_collectsInside (num : Nat) (table : Nat → Nat → VRingPackedDesc)
    (mapped reads : Nat) (desc : VRingPackedDesc) (max next : Nat) (indirect : Bool) :
    CollectsInside (fun _ => True)
      ((virtqueuePackedReadNextDesc num table mapped reads desc max next indirect).mapError
        .fault) := by
  have read (i : Nat) (f : VRingPackedDesc → Option (VRingPackedDesc × Nat)) :
      CollectsInside (fun _ => True)
        (((readDescCached mapped table reads i).map f).mapError .fault) := by
    unfold readDescCached
    split
    · exact Fault.noConfusion
    · trivial
  unfold virtqueuePackedReadNextDesc
  split
  · trivial
  · split
    · split
      · trivial
      · exact read _ _
    · exact read _ _

theorem packedPopChain_collectsInside {guest : Guest} {num : Nat}
    {table : Nat → Nat → VRingPackedDesc} {mapped max : Nat} {indirect : Bool}
    {room entries reads next : Nat} {desc : VRingPackedDesc} {sgs : SgLists} (fits : sgs.Fits) :
    CollectsInside (fun _ => True)
      (packedPopChain guest num table mapped max indirect room entries reads next desc sgs) := by
  induction room generalizing entries reads next desc sgs with
  | zero =>
    rw [packedPopChain]
    apply (mapChainDesc_collects fits).inside.bind
    intro buffers _
    trivial
  | succ room ih =>
    rw [packedPopChain]
    apply (mapChainDesc_collects fits).inside.bind
    intro buffers within
    apply (packedReadNext_collectsInside ..).bind
    intro more _
    cases more with
    | none => trivial
    | some following => exact ih within

theorem mapIndirect_collectsInside (guest : Guest) (addr : UInt64) (len : UInt32) :
    CollectsInside (fun _ => True) (mapIndirect guest addr len) := by
  unfold mapIndirect addressSpaceCacheInit
  split
  · exact Fault.noConfusion
  · change CollectsInside _ (if _ then _ else _)
    split
    · trivial
    · trivial

theorem packedPopElement_collectsInside (guest : Guest) (vq : VirtQueue) :
    CollectsInside (fun _ => True) (packedPopElement guest vq) := by
  have empty : SgLists.Fits {} := Nat.zero_le _
  apply (checkDescCache_collects vq.vring).inside.bind
  intro mapped _
  apply (readDescCached_collectsInside ..).bind
  intro desc _
  split
  · split
    · trivial
    · apply (mapIndirect_collectsInside ..).bind
      intro table _
      apply (readDescCached_collectsInside ..).bind
      intro first _
      apply (packedPopChain_collectsInside empty).map
      exact fun _ _ => trivial
  · apply (packedPopChain_collectsInside empty).map
    exact fun _ _ => trivial

variable {vq : VirtQueue}

theorem PopSafe.inside {pop : Checked (Option VirtQueueElement × VirtQueue)}
    (safe : PopSafe vq pop)
    (record : vq.vdev.inOrder = true → recordIndex vq < vq.usedElems.length) :
    Inside (fun _ => True) pop := by
  match pop, safe with
  | .ok _, _ => trivial
  | .error _, ⟨_, ordered, outside⟩ => exact absurd (record ordered) (Nat.not_lt.mpr outside)

theorem virtioQueuePackedEmptyRcu_inside (guest : Guest) (vq : VirtQueue) :
    Inside (fun _ => True) (virtioQueuePackedEmptyRcu guest vq) := by
  unfold virtioQueuePackedEmptyRcu readDescCached
  split
  · trivial
  · split
    · trivial
    · split
      · exact Fault.noConfusion
      · trivial

theorem recordInOrder_inside {idx : Nat} (elem : VirtQueueElement)
    (record : vq.vdev.inOrder = true → idx < vq.usedElems.length) :
    Inside (fun _ => True) (recordInOrder vq idx elem) := by
  unfold recordInOrder
  split
  next ordered =>
    apply Inside.read (record ordered)
    intro old _
    trivial
  · trivial

theorem virtqueuePackedPop_inside (guest : Guest) (packed : vq.vdev.ringPacked = true)
    (record : vq.vdev.inOrder = true → recordIndex vq < vq.usedElems.length) :
    Inside (fun _ => True) (virtqueuePackedPop guest vq) := by
  apply (virtioQueuePackedEmptyRcu_inside guest vq).bind
  intro empty _
  split
  · trivial
  · split
    · trivial
    · have collects := packedPopElement_collectsInside guest vq
      split
      next fault failed =>
        rw [failed] at collects
        exact collects
      · trivial
      next elem collected =>
        rw [recordIndex, if_pos packed] at record
        apply (recordInOrder_inside elem record).bind
        intro recorded _
        trivial

/-- A pop leaves an array only with the record of an in-order queue. -/
theorem virtqueuePop_inside (guest : Guest)
    (record : vq.vdev.inOrder = true → recordIndex vq < vq.usedElems.length) :
    Inside (fun _ => True) (virtqueuePop guest vq) := by
  unfold virtqueuePop
  split
  · trivial
  · split
    next packed => exact virtqueuePackedPop_inside guest packed record
    next split => exact (virtqueueSplitPop_safe guest (Bool.eq_false_iff.mpr split)).inside record

theorem virtqueuePop_full (guest : Guest) (full : vq.vring.num ≤ vq.inuse.toNat) :
    Inside (fun _ => True) (virtqueuePop guest vq) := by
  unfold virtqueuePop
  split
  · trivial
  · split
    · apply (virtioQueuePackedEmptyRcu_inside guest vq).bind
      intro empty _
      rw [if_pos full]
      split
      · trivial
      · trivial
    · unfold virtqueueSplitPop
      rcases virtioQueueEmptyRcu_cases guest vq with empty | ⟨-, empty, shadow, tested, -⟩
      · rw [empty]
        trivial
      · rw [tested]
        dsimp only
        rw [if_pos full]
        split
        · trivial
        · trivial

/-! ### Fills -/

/-- The walk of `virtqueue_ordered_fill` from entry `i` finds the index within as many
turns, and no entry that it passes ends at the end of the array or behind it. -/
def walkInside (num : Nat) (usedElems : List VirtQueueElement) (index : UInt32) :
    Nat → Nat → Bool
  | 0, _ => false
  | turns + 1, i =>
    match usedElems[i]? with
    | none => false
    | some here =>
      here.index == index ||
        decide (i + here.ndescs.toNat < usedElems.length) &&
          walkInside num usedElems index turns
            (if num ≤ i + here.ndescs.toNat then i + here.ndescs.toNat - num
              else i + here.ndescs.toNat)

theorem markFilled_ndescs (usedElems : List VirtQueueElement) (i : Nat) (len : UInt32) :
    (markFilled usedElems i len).map VirtQueueElement.ndescs =
      usedElems.map VirtQueueElement.ndescs := by
  apply List.ext_getElem?
  intro place
  rw [List.getElem?_map, List.getElem?_map, markFilled, List.getElem?_modify]
  cases usedElems[place]? with
  | none => rfl
  | some entry =>
    by_cases here : i = place
    · simp [here]
    · simp [here]

theorem short_of_map_ndescs {before after : List VirtQueueElement} {bound : Nat}
    (same : after.map VirtQueueElement.ndescs = before.map VirtQueueElement.ndescs)
    (short : ∀ entry ∈ before, entry.ndescs.toNat ≤ bound) :
    ∀ entry ∈ after, entry.ndescs.toNat ≤ bound := by
  intro entry member
  have length : entry.ndescs ∈ before.map VirtQueueElement.ndescs :=
    same ▸ List.mem_map_of_mem member
  obtain ⟨old, oldMember, isOld⟩ := List.mem_map.mp length
  rw [← isOld]
  exact short old oldMember

/-- A fill whose walk stays inside marks one entry at most. -/
theorem orderedFillSearch_inside {num maxSteps fuel turns i steps : Nat} {index len : UInt32}
    {usedElems : List VirtQueueElement}
    (walk : walkInside num usedElems index turns i = true) :
    Inside (fun after => after = usedElems ∨ ∃ i, after = markFilled usedElems i len)
      (orderedFillSearch num index len maxSteps fuel i steps usedElems) := by
  induction fuel generalizing turns i steps with
  | zero => exact Fault.noConfusion
  | succ fuel ih =>
    cases turns with
    | zero => cases walk
    | succ turns =>
      rw [walkInside] at walk
      split at walk
      · cases walk
      next here present =>
        rw [orderedFillSearch_at present]
        split
        · exact .inl rfl
        · split
          · exact .inr ⟨i, rfl⟩
          next other =>
            rw [Bool.or_eq_true, beq_iff_eq, Bool.and_eq_true, decide_eq_true_eq] at walk
            obtain ⟨inside, further⟩ := walk.resolve_left other
            apply Inside.read inside
            exact fun there _ => ih further

theorem virtqueueOrderedFill_inside {elem : VirtQueueElement} {turns : Nat}
    (len : UInt32)
    (walk : walkInside vq.vring.num vq.usedElems elem.index turns
      (vq.usedIdx.toNat % vq.vring.num) = true) :
    Inside (fun after => ∃ usedElems, after = { vq with usedElems } ∧
        usedElems.map VirtQueueElement.ndescs = vq.usedElems.map VirtQueueElement.ndescs)
      (virtqueueOrderedFill vq elem len) := by
  apply (orderedFillSearch_inside walk).bind
  intro usedElems marked
  refine ⟨usedElems, rfl, ?_⟩
  rcases marked with rfl | ⟨i, rfl⟩
  · rfl
  · exact markFilled_ndescs _ _ _

theorem virtqueueSplitFill_frame (vq : VirtQueue) (elem : VirtQueueElement) (len idx : UInt32) :
    ∃ usedRing, virtqueueSplitFill vq elem len idx = { vq with usedRing } := by
  unfold virtqueueSplitFill vringUsedWrite
  split
  · exact ⟨_, rfl⟩
  · split
    · exact ⟨_, rfl⟩
    · exact ⟨_, rfl⟩

/-! ### Flushes -/

/-- What a completion leaves as it is: the size of the ring, the device, and the entries
but for their marks. -/
structure SameEntries (vq after : VirtQueue) : Prop where
  vring : after.vring = vq.vring
  vdev : after.vdev = vq.vdev
  usedElems : after.usedElems.map unmark = vq.usedElems.map unmark

theorem SameEntries.ndescs {after : VirtQueue} (same : SameEntries vq after) :
    after.usedElems.map VirtQueueElement.ndescs = vq.usedElems.map VirtQueueElement.ndescs := by
  have lengths := congrArg (List.map VirtQueueElement.ndescs) same.usedElems
  rw [List.map_map, List.map_map] at lengths
  exact lengths

/-- The loop of a flush stays inside as long as no entry is longer than the ring. -/
theorem orderedFlushRun_inside {fuel i : Nat} {ndescs : UInt32}
    (covers : vq.vring.num ≤ vq.usedElems.length) (start : i < vq.usedElems.length)
    (short : ∀ entry ∈ vq.usedElems, entry.ndescs.toNat ≤ vq.vring.num) :
    Inside (fun result => SameEntries vq result.2) (orderedFlushRun fuel i ndescs vq) := by
  induction fuel generalizing i ndescs vq with
  | zero => exact Fault.noConfusion
  | succ fuel ih =>
    have present := List.getElem?_eq_getElem start
    cases filled : vq.usedElems[i].inOrderFilled with
    | false =>
      rw [orderedFlushRun_unfilled present filled]
      exact ⟨rfl, rfl, rfl⟩
    | true =>
      have length := short _ (List.getElem_mem start)
      obtain ⟨usedRing, descRing, framed⟩ :=
        orderedFlushWrite_frame vq i vq.usedElems[i] ndescs
      rw [orderedFlushRun_filled present filled, framed]
      refine (ih ?_ ?_ ?_).mono ?_
      · rw [List.length_set]
        exact covers
      · rw [List.length_set]
        split
        · omega
        · omega
      · grind
      · intro result same
        exact ⟨same.vring, same.vdev, same.usedElems.trans (map_unmark_set present)⟩

/-- A flush of a split in-order queue stays inside, because its entries are one
descriptor long. -/
theorem virtqueueOrderedFlush_split_inside (layout : vq.vdev.ringPacked = false)
    (numPos : 0 < vq.vring.num) (covers : vq.vring.num ≤ vq.usedElems.length)
    (single : ∀ entry ∈ vq.usedElems, entry.ndescs.toNat ≤ 1) :
    Inside (SameEntries vq) (virtqueueOrderedFlush vq) := by
  have start : vq.usedIdx.toNat % vq.vring.num < vq.usedElems.length :=
    Nat.lt_of_lt_of_le (Nat.mod_lt _ numPos) covers
  unfold virtqueueOrderedFlush
  dsimp only
  rw [if_neg (Bool.eq_false_iff.mp layout)]
  split
  · exact ⟨rfl, rfl, rfl⟩
  · apply Inside.read start
    intro first _
    split
    · exact ⟨rfl, rfl, rfl⟩
    · apply (orderedFlushRun_inside covers start fun entry member =>
        (single entry member).trans numPos).bind
      intro result same
      rw [if_neg (by rw [same.vdev]; exact Bool.eq_false_iff.mp layout)]
      exact ⟨same.vring, same.vdev, same.usedElems⟩

/-- The loop of a flush without `VIRTIO_F_IN_ORDER` reads as many entries as it has
elements to flush. -/
theorem packedFlushRest_inside {left start : Nat} {ndescs : UInt32}
    (covers : start + left ≤ vq.usedElems.length) :
    Inside (fun _ => True) (packedFlushRest left start ndescs vq) := by
  induction left generalizing start ndescs vq with
  | zero => trivial
  | succ left ih =>
    rw [packedFlushRest]
    apply Inside.read (by omega)
    intro elem _
    obtain ⟨descRing, framed⟩ := virtqueuePackedFillDesc_frame vq elem ndescs
    rw [framed]
    apply ih
    change start + 1 + left ≤ vq.usedElems.length
    omega

theorem virtqueuePackedFlush_inside {count : UInt32} (some : 0 < vq.usedElems.length)
    (covers : count.toNat ≤ vq.usedElems.length) :
    Inside (fun _ => True) (virtqueuePackedFlush vq count) := by
  unfold virtqueuePackedFlush
  split
  · trivial
  · apply Inside.read some
    intro first _
    apply (packedFlushRest_inside (by omega)).bind
    intro result _
    trivial

end QemuGzvm.Virtio
