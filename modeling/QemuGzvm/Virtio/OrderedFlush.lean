import QemuGzvm.Virtio.OrderedFill

/-!
Contract: flushing the elements of a virtqueue with `VIRTIO_F_IN_ORDER`.

Owns:
- what the rings hold of the elements flushed, and what one turn of a flush writes;
- the loop of `virtqueue_ordered_flush`, which takes the elements that are pushed, from
  the oldest on, up to the first that is not;
- `OrderedFlushed`, what a flush makes of a queue.
-/

namespace QemuGzvm.Virtio

open QemuGzvm.Library

/-! ### The rings

A used descriptor of a packed ring carries the lap of its slot in its flags. A flush writes
the first element of a packed queue last. -/

/-- The used element that completes an element of a split queue. -/
def usedEntry (_number : Nat) (item : OrderedElem) : VRingUsedElem :=
  { id := item.elem.index, len := item.pushed.getD 0 }

/-- The used descriptor that completes an element of a packed queue. -/
def descEntry (num number : Nat) (item : OrderedElem) : VRingPackedDesc :=
  { id := item.elem.index.toUInt16
    len := item.pushed.getD 0
    flags :=
      if (LapCounter.ofNumber num number).wrap then packedDescAvail ||| packedDescUsed else 0 }

/-- A used ring of `num` entries holds the elements, in this order. -/
abbrev UsedHolds (num : Nat) (usedRing : List (Option VRingUsedElem))
    (flushed : List OrderedElem) : Prop :=
  RingWindow.Written OrderedElem.slots usedEntry num usedRing flushed

/-- A descriptor ring of `num` entries holds the elements, in this order. -/
abbrev DescHolds (num : Nat) (descRing : List (Option VRingPackedDesc))
    (flushed : List OrderedElem) : Prop :=
  RingWindow.Written OrderedElem.slots (descEntry num) num descRing flushed

variable {item : OrderedElem} {entry : VirtQueueElement} {ndescs : UInt32} {vq : VirtQueue}
  {fuel i : Nat} {base : Nat} {descRing : List (Option VRingPackedDesc)}
  {usedRing : List (Option VRingUsedElem)} {written window : List OrderedElem}
  {usedElems : List VirtQueueElement}

theorem Recorded.len_getD (recorded : Recorded item entry) (pushed : item.pushed.isSome = true) :
    entry.len = item.pushed.getD 0 := by
  obtain ⟨len, isPushed⟩ := Option.isSome_iff_exists.mp pushed
  rw [recorded.len len isPushed, isPushed, Option.getD_some]

theorem virtqueuePackedFillDesc_entry (vq : VirtQueue) {number : Nat} (numPos : 0 < vq.vring.num)
    (numSmall : vq.vring.num ≤ virtqueueMaxSize) (ring : vq.vring.desc ≠ 0)
    (cached : vq.vring.caches ≠ none)
    (counter : usedCounter vq = LapCounter.ofNumber vq.vring.num number)
    (short : ndescs.toNat ≤ vq.vring.num) (index : entry.index = item.elem.index)
    (len : entry.len = item.pushed.getD 0) :
    virtqueuePackedFillDesc vq entry ndescs =
      { vq with
        descRing := vq.descRing.set ((number + ndescs.toNat) % vq.vring.num)
          (some (descEntry vq.vring.num (number + ndescs.toNat) item)) } := by
  obtain ⟨mapped, present⟩ := Option.ne_none_iff_exists'.mp cached
  have inside : vq.usedIdx.toNat < vq.vring.num := by
    have same : vq.usedIdx.toNat = number % vq.vring.num := congrArg LapCounter.index counter
    rw [same]
    exact Nat.mod_lt _ numPos
  obtain ⟨sum, wrapped⟩ := index_advance numSmall inside short
  have moved := LapCounter.ofNumber_advance numPos number short
  rw [← counter, LapCounter.advance] at moved
  by_cases wraps : vq.vring.num ≤ (usedCounter vq).index + ndescs.toNat
  · rw [if_pos wraps] at moved
    have indexEq : vq.usedIdx.toNat + ndescs.toNat - vq.vring.num =
        (number + ndescs.toNat) % vq.vring.num := congrArg LapCounter.index moved
    have wrapEq : (!vq.usedWrapCounter) = _ := congrArg LapCounter.wrap moved
    change vq.vring.num ≤ vq.usedIdx.toNat + ndescs.toNat at wraps
    simp [virtqueuePackedFillDesc, if_neg ring, sum, wraps, present, wrapped wraps, index, len,
        descEntry, ← wrapEq, ← indexEq]
  · rw [if_neg wraps] at moved
    have indexEq : vq.usedIdx.toNat + ndescs.toNat =
        (number + ndescs.toNat) % vq.vring.num := congrArg LapCounter.index moved
    have wrapEq : vq.usedWrapCounter = _ := congrArg LapCounter.wrap moved
    change ¬vq.vring.num ≤ vq.usedIdx.toNat + ndescs.toNat at wraps
    simp [virtqueuePackedFillDesc, if_neg ring, sum, wraps, present, index, len, descEntry,
        ← wrapEq, ← indexEq]

/-- What one turn of `virtqueue_ordered_flush` writes to the ring. -/
def orderedFlushWrite (vq : VirtQueue) (i : Nat) (elem : VirtQueueElement) (ndescs : UInt32) :
    VirtQueue :=
  if vq.vdev.ringPacked then
    if i ≠ vq.usedIdx.toNat then virtqueuePackedFillDesc vq elem ndescs else vq
  else vringUsedWrite vq { id := elem.index, len := elem.len } i

/-- What a packed ring holds while a flush has taken the elements `written`: the first of
them is not yet in the ring. -/
def PackedFlushing (num : Nat) (flushed : List OrderedElem) :
    List OrderedElem → List (Option VRingPackedDesc) → Prop
  | [], descRing => DescHolds num descRing flushed
  | first :: rest, descRing =>
    DescHolds num
      (descRing.set (descsOf flushed % num) (descEntry num (descsOf flushed) first))
      (flushed ++ first :: rest)

section Turn

variable (queue : VirtQueue) {flushed : List OrderedElem} (numPos : 0 < queue.vring.num)
  (cached : queue.vring.caches ≠ none) (pushed : item.pushed.isSome = true)
  (recorded : Recorded item entry) (positive : 0 < item.slots)
include numPos cached pushed recorded positive

theorem orderedFlushWrite_split (split : queue.vdev.ringPacked = false)
    (holds : UsedHolds queue.vring.num queue.usedRing (flushed ++ written)) :
    UsedHolds queue.vring.num
      (orderedFlushWrite queue ((descsOf flushed + descsOf written) % queue.vring.num) entry
        ndescs).usedRing (flushed ++ (written ++ [item])) := by
  have next := holds.append numPos item positive
  rw [RingWindow.extent_append, List.append_assoc] at next
  simp only [orderedFlushWrite, split, Bool.false_eq_true, if_false]
  rw [vringUsedWrite_cached cached, recorded.index, recorded.len_getD pushed]
  exact next

theorem orderedFlushWrite_packed (numSmall : queue.vring.num ≤ virtqueueMaxSize)
    (packed : queue.vdev.ringPacked = true) (area : queue.vring.desc ≠ 0)
    (counter : usedCounter queue = LapCounter.ofNumber queue.vring.num (descsOf flushed))
    (fits : descsOf written + item.slots ≤ queue.vring.num)
    (counted : ndescs.toNat = descsOf written)
    (holds : PackedFlushing queue.vring.num flushed written queue.descRing) :
    PackedFlushing queue.vring.num flushed (written ++ [item])
      (orderedFlushWrite queue ((descsOf flushed + descsOf written) % queue.vring.num) entry
        ndescs).descRing := by
  have position : queue.usedIdx.toNat = descsOf flushed % queue.vring.num :=
    congrArg LapCounter.index counter
  simp only [orderedFlushWrite, packed, if_true]
  cases written with
  | nil =>
    -- The first element is left for the end.
    rw [if_neg (by rw [position]; exact fun apart => apart rfl)]
    exact holds.append numPos item positive
  | cons first rest =>
    have own : 0 < first.slots :=
      holds.positive first (List.mem_append_right _ List.mem_cons_self)
    have all : descsOf (first :: rest) = first.slots + descsOf rest :=
      RingWindow.extent_cons first rest
    have apart : descsOf flushed % queue.vring.num ≠
        (descsOf flushed + descsOf (first :: rest)) % queue.vring.num :=
      Ring.mod_ne_of_lt (by omega) (by omega)
    have next := holds.append numPos item positive
    rw [RingWindow.extent_append, List.append_assoc, List.set_comm _ _ apart] at next
    rw [if_pos (by rw [position]; exact apart.symm), virtqueuePackedFillDesc_entry queue numPos
      numSmall area cached counter (by omega) recorded.index (recorded.len_getD pushed), counted]
    exact next

end Turn

/-- What the writes of a flush keep: a ring that held the elements flushed before, as many
descriptors as `base` says, holds those written since behind them. -/
structure FlushContent (base : Nat) (vq : VirtQueue) (written : List OrderedElem)
    (usedRing : List (Option VRingUsedElem)) (descRing : List (Option VRingPackedDesc)) :
    Prop where
  usedRing : vq.vdev.ringPacked = false → vq.vring.caches ≠ none →
    ∀ flushed, descsOf flushed = base → UsedHolds vq.vring.num vq.usedRing flushed →
      UsedHolds vq.vring.num usedRing (flushed ++ written)
  descRing : vq.vdev.ringPacked = true → vq.vring.caches ≠ none →
    ∀ flushed, descsOf flushed = base → DescHolds vq.vring.num vq.descRing flushed →
      PackedFlushing vq.vring.num flushed written descRing

theorem FlushContent.nil (base : Nat) (vq : VirtQueue) :
    FlushContent base vq [] vq.usedRing vq.descRing where
  usedRing := fun _ _ flushed _ holds => by
    rw [List.append_nil]
    exact holds
  descRing := fun _ _ _ _ holds => holds

theorem FlushContent.write (content : FlushContent base vq written usedRing descRing)
    (usedElems : List VirtQueueElement)
    (numPos : 0 < vq.vring.num) (numSmall : vq.vring.num ≤ virtqueueMaxSize)
    (counter : vq.vdev.ringPacked = true →
      vq.vring.desc ≠ 0 ∧ usedCounter vq = LapCounter.ofNumber vq.vring.num base)
    (pushed : item.pushed.isSome = true) (recorded : Recorded item entry)
    (positive : 0 < item.slots) (fits : descsOf written + item.slots ≤ vq.vring.num)
    (counted : ndescs.toNat = descsOf written) :
    let wrote := orderedFlushWrite { vq with usedElems, usedRing, descRing }
      ((base + descsOf written) % vq.vring.num) entry ndescs
    FlushContent base vq (written ++ [item]) wrote.usedRing wrote.descRing := by
  constructor
  · intro split cached flushed total holds
    subst total
    exact orderedFlushWrite_split { vq with usedElems, usedRing, descRing } numPos cached pushed
      recorded positive split (content.usedRing split cached flushed rfl holds)
  · intro packed cached flushed total holds
    subst total
    obtain ⟨area, at_⟩ := counter packed
    exact orderedFlushWrite_packed { vq with usedElems, usedRing, descRing } numPos cached pushed
      recorded positive numSmall packed area at_ fits counted
      (content.descRing packed cached flushed rfl holds)

/-! ### Flushing -/

theorem orderedFlushWrite_frame (vq : VirtQueue) (i : Nat) (elem : VirtQueueElement)
    (ndescs : UInt32) :
    ∃ usedRing descRing, orderedFlushWrite vq i elem ndescs = { vq with usedRing, descRing } := by
  unfold orderedFlushWrite
  split
  · split
    · obtain ⟨descRing, framed⟩ := virtqueuePackedFillDesc_frame vq elem ndescs
      exact ⟨vq.usedRing, descRing, framed⟩
    · exact ⟨_, _, rfl⟩
  · grind [VirtQueue, vringUsedWrite]

theorem orderedFlushRun_filled (present : vq.usedElems[i]? = some entry)
    (filled : entry.inOrderFilled = true) :
    orderedFlushRun (fuel + 1) i ndescs vq =
      orderedFlushRun fuel
        (if vq.vring.num ≤ i + entry.ndescs.toNat then i + entry.ndescs.toNat - vq.vring.num
          else i + entry.ndescs.toNat) (ndescs + entry.ndescs)
        { orderedFlushWrite vq i entry ndescs with
          usedElems := vq.usedElems.set i { entry with inOrderFilled := false } } := by
  obtain ⟨usedRing, descRing, framed⟩ := orderedFlushWrite_frame vq i entry ndescs
  rw [orderedFlushRun, readAt_of_getElem? present, bind_ok, filled]
  change orderedFlushRun fuel
      (if (orderedFlushWrite vq i entry ndescs).vring.num ≤ i + entry.ndescs.toNat then
        i + entry.ndescs.toNat - (orderedFlushWrite vq i entry ndescs).vring.num
        else i + entry.ndescs.toNat) (ndescs + entry.ndescs)
      { orderedFlushWrite vq i entry ndescs with
        usedElems := (orderedFlushWrite vq i entry ndescs).usedElems.set i
          { entry with inOrderFilled := false } } = _
  rw [framed]

theorem orderedFlushRun_unfilled (present : vq.usedElems[i]? = some entry)
    (unfilled : entry.inOrderFilled = false) :
    orderedFlushRun (fuel + 1) i ndescs vq = .ok (ndescs, vq) := by
  rw [orderedFlushRun, readAt_of_getElem? present, bind_ok, unfilled]
  rfl

/-- The elements that are pushed, from the oldest on, and the rest. -/
def completed (window : List OrderedElem) : List OrderedElem :=
  window.takeWhile fun item => item.pushed.isSome

def remaining (window : List OrderedElem) : List OrderedElem :=
  window.dropWhile fun item => item.pushed.isSome

theorem completed_append_remaining (window : List OrderedElem) :
    completed window ++ remaining window = window := List.takeWhile_append_dropWhile

theorem descsOf_completed_add (window : List OrderedElem) :
    descsOf (completed window) + descsOf (remaining window) = descsOf window := by
  rw [← RingWindow.extent_append, completed_append_remaining]

theorem isSome_of_mem_completed (member : item ∈ completed window) :
    item.pushed.isSome = true :=
  List.all_eq_true.mp List.all_takeWhile item member

theorem completed_append {front : List OrderedElem}
    (pushed : ∀ item ∈ front, item.pushed.isSome = true) (back : List OrderedElem) :
    completed (front ++ back) = front ++ completed back ∧
      remaining (front ++ back) = remaining back :=
  ⟨List.takeWhile_append_of_pos pushed, List.dropWhile_append_of_pos pushed⟩

theorem completed_concat (waiting : item.pushed = none) (window : List OrderedElem) :
    completed (window ++ [item]) = completed window ∧
      remaining (window ++ [item]) = remaining window ++ [item] := by
  induction window with
  | nil => simp [completed, remaining, waiting]
  | cons first rest ih =>
    unfold completed remaining at ih ⊢
    cases pushed : first.pushed with
    | none => simp [pushed]
    | some len => simpa [pushed] using ih

def unmark (entry : VirtQueueElement) : VirtQueueElement := { entry with inOrderFilled := false }

theorem map_unmark_set (present : usedElems[i]? = some entry) :
    (usedElems.set i (unmark entry)).map unmark = usedElems.map unmark := by
  obtain ⟨inside, rfl⟩ := List.getElem?_eq_some_iff.mp present
  rw [List.map_set]
  change (usedElems.map unmark).set i (unmark usedElems[i]) = _
  rw [← List.getElem_map unmark (h := by rw [List.length_map]; exact inside),
    List.set_getElem_self]

/-- A flush has taken the elements `written`; those of `window` are still in flight. -/
structure Flushing (base : Nat) (vq : VirtQueue) (written window : List OrderedElem)
    (ndescs : UInt32) (usedElems : List VirtQueueElement)
    (usedRing : List (Option VRingUsedElem)) (descRing : List (Option VRingPackedDesc)) :
    Prop where
  counted : ndescs.toNat = descsOf written
  inFlight : InFlight vq.vring.num usedElems (base + descsOf written) window
  content : FlushContent base vq written usedRing descRing

section Flush

variable (numPos : 0 < vq.vring.num) (numSmall : vq.vring.num ≤ virtqueueMaxSize)
  (counter : vq.vdev.ringPacked = true →
    vq.vring.desc ≠ 0 ∧ usedCounter vq = LapCounter.ofNumber vq.vring.num base)
include numPos numSmall counter

/-- The loop of a flush: it takes the elements that are pushed, up to the first that is
not. -/
theorem orderedFlushRun_done
    (flushing : Flushing base vq written window ndescs usedElems usedRing descRing)
    (covers : vq.vring.num ≤ usedElems.length)
    (fits : descsOf written + descsOf window ≤ vq.vring.num) (turns : window.length < fuel) :
    ∃ total usedElems' usedRing' descRing',
      orderedFlushRun fuel ((base + descsOf written) % vq.vring.num) ndescs
          { vq with usedElems, usedRing, descRing } =
        .ok (total, { vq with
                      usedElems := usedElems', usedRing := usedRing', descRing := descRing' }) ∧
      Flushing base vq (written ++ completed window) (remaining window) total usedElems'
        usedRing' descRing' ∧
      usedElems'.map unmark = usedElems.map unmark := by
  obtain ⟨fuel, rfl⟩ := Nat.exists_eq_add_one_of_ne_zero (Nat.ne_of_gt (Nat.zero_lt_of_lt turns))
  obtain ⟨counted, inFlight, content⟩ := flushing
  induction window generalizing written fuel ndescs usedElems usedRing descRing with
  | nil =>
    -- Behind the last element stands an entry that is not filled.
    have inside := Nat.lt_of_lt_of_le
      (Nat.mod_lt (base + descsOf written) numPos) covers
    have present := List.getElem?_eq_getElem inside
    have unfilled := inFlight.other _ _ present nofun
    rw [completed, List.takeWhile_nil, List.append_nil]
    exact ⟨ndescs, usedElems, usedRing, descRing, orderedFlushRun_unfilled present unfilled,
      ⟨counted, inFlight, content⟩, rfl⟩
  | cons item window ih =>
    obtain ⟨entry, present, recorded⟩ := inFlight.item 0 item rfl
    cases pushed : item.pushed with
    | none =>
      have waits : completed (item :: window) = [] := by simp [completed, pushed]
      have stays : remaining (item :: window) = item :: window := by simp [remaining, pushed]
      have unfilled : entry.inOrderFilled = false := by
        rw [recorded.filled, pushed]
        rfl
      rw [waits, stays, List.append_nil]
      exact ⟨ndescs, usedElems, usedRing, descRing, orderedFlushRun_unfilled present unfilled,
        ⟨counted, inFlight, content⟩, rfl⟩
    | some len =>
      have goes : completed (item :: window) = item :: completed window := by
        simp [completed, pushed]
      have stays : remaining (item :: window) = remaining window := by simp [remaining, pushed]
      have filled : entry.inOrderFilled = true := by
        rw [recorded.filled, pushed]
        rfl
      have single : descsOf (written ++ [item]) = descsOf written + item.slots :=
        RingWindow.extent_concat written item
      have both : descsOf (item :: window) = item.slots + descsOf window :=
        RingWindow.extent_cons item window
      have length : entry.ndescs.toNat = item.slots := by rw [recorded.ndescs]; rfl
      unfold virtqueueMaxSize at numSmall
      obtain ⟨fuel, rfl⟩ := Nat.exists_eq_add_one_of_ne_zero (n := fuel) (by
        rw [List.length_cons] at turns
        omega)
      obtain ⟨usedRing', descRing', framed⟩ := orderedFlushWrite_frame
        { vq with usedElems, usedRing, descRing }
        ((base + descsOf written) % vq.vring.num) entry ndescs
      have grown : FlushContent base vq (written ++ [item]) _ _ :=
        content.write usedElems numPos numSmall counter (by rw [pushed]; rfl) recorded
          (inFlight.positive item List.mem_cons_self) (by omega) counted
      rw [framed] at grown
      have advanced : (ndescs + entry.ndescs).toNat = descsOf (written ++ [item]) := by
        rw [UInt32.toNat_add, length, single, counted]
        omega
      have dropped : InFlight _ (usedElems.set _ (unmark entry)) _ window := inFlight.drop rfl
      rw [goes, stays, List.append_cons, orderedFlushRun_filled present filled, framed, length,
        LapCounter.wrap_add_mod numPos _ (by omega), Nat.add_assoc, ← single]
      rw [Nat.add_assoc, ← single] at dropped
      obtain ⟨total, elems', used', desc', ran, flushed, same⟩ :=
        ih (by rw [List.length_set]; exact covers) (by omega) fuel
          (by rw [List.length_cons] at turns; omega) advanced dropped grown
      exact ⟨total, elems', used', desc', ran, flushed, same.trans (map_unmark_set present)⟩

/-! ### What a flush does -/

/-- What `virtqueue_ordered_flush` makes of a queue whose elements in flight start at
descriptor number `base`. -/
structure OrderedFlushed (base : Nat) (window : List OrderedElem) (vq after : VirtQueue) :
    Prop where
  vring : after.vring = vq.vring
  vdev : after.vdev = vq.vdev
  avail : availCounter after = availCounter vq
  covers : after.usedElems.length = vq.usedElems.length
  inFlight : InFlight vq.vring.num after.usedElems (base + descsOf (completed window))
    (remaining window)
  inuse : after.inuse.toNat + descsOf (completed window) = vq.inuse.toNat
  usedIdx : vq.vdev.ringPacked = false →
    after.usedIdx = vq.usedIdx + UInt16.ofNat (descsOf (completed window))
  usedCounter : vq.vdev.ringPacked = true →
    usedCounter after = LapCounter.ofNumber vq.vring.num (base + descsOf (completed window))
  usedRing : vq.vdev.ringPacked = false → vq.vring.caches ≠ none →
    ∀ flushed, descsOf flushed = base → UsedHolds vq.vring.num vq.usedRing flushed →
      UsedHolds vq.vring.num after.usedRing (flushed ++ completed window)
  descRing : vq.vdev.ringPacked = true → vq.vring.caches ≠ none →
    ∀ flushed, descsOf flushed = base → DescHolds vq.vring.num vq.descRing flushed →
      DescHolds vq.vring.num after.descRing (flushed ++ completed window)

omit numPos numSmall counter in
/-- An element at the head that is not pushed keeps all of them in flight. -/
theorem orderedFlushed_nothing (waits : completed window = [])
    (inFlight : InFlight vq.vring.num vq.usedElems base window)
    (counter : vq.vdev.ringPacked = true →
      usedCounter vq = LapCounter.ofNumber vq.vring.num base) :
    OrderedFlushed base window vq vq := by
  have stays : remaining window = window := by
    have parts := completed_append_remaining window
    rw [waits] at parts
    exact parts
  refine ⟨rfl, rfl, rfl, rfl, ?_, ?_, fun _ => ?_, fun packed => ?_, fun _ _ flushed _ holds => ?_,
    fun _ _ flushed _ holds => ?_⟩
  · rw [waits, stays]
    exact inFlight
  · rw [waits]
    rfl
  · rw [waits]
    exact (UInt16.add_zero _).symm
  · rw [waits]
    exact counter packed
  · rw [waits, List.append_nil]
    exact holds
  · rw [waits, List.append_nil]
    exact holds

omit numPos numSmall counter in
/-- The entry at the head of the queue is filled if the oldest element is pushed. -/
theorem head_filled {num : Nat} {entry : VirtQueueElement}
    (inFlight : InFlight num usedElems base window) (present : usedElems[base % num]? = some entry) :
    entry.inOrderFilled = true ↔ completed window ≠ [] := by
  cases window with
  | nil =>
    have unfilled : entry.inOrderFilled = false := inFlight.other _ _ present nofun
    simp [completed, unfilled]
  | cons first rest =>
    obtain ⟨found, foundAt, recorded⟩ := inFlight.item 0 first rfl
    rw [RingWindow.slot, RingWindow.offset_zero, Nat.add_zero, present] at foundAt
    cases foundAt
    rw [recorded.filled]
    cases pushed : first.pushed with
    | none => simp [completed, pushed]
    | some len => simp [completed, pushed]

variable (covers : vq.vring.num ≤ vq.usedElems.length)
  (inFlight : InFlight vq.vring.num vq.usedElems base window)
include covers inFlight

theorem orderedFlushRun_head :
    ∃ total usedElems usedRing descRing,
      orderedFlushRun (vq.usedElems.length + 1) (base % vq.vring.num) 0 vq =
        .ok (total, { vq with usedElems, usedRing, descRing }) ∧
      Flushing base vq (completed window) (remaining window) total usedElems usedRing descRing ∧
      usedElems.map unmark = vq.usedElems.map unmark := by
  have few := RingWindow.length_le_extent inFlight.positive
  have fits : descsOf [] + descsOf window ≤ vq.vring.num := by
    rw [descsOf, RingWindow.extent_nil, Nat.zero_add]
    exact inFlight.fits
  have turns : window.length < vq.usedElems.length + 1 := by
    have all := inFlight.fits
    omega
  exact orderedFlushRun_done numPos numSmall counter ⟨rfl, inFlight, .nil base vq⟩ covers fits turns

omit numPos numSmall covers counter in
/-- The entry that the end of a flush of a packed queue reads. -/
theorem head_entry (pushed : completed window ≠ [])
    (same : usedElems.map unmark = vq.usedElems.map unmark) :
    ∃ first rest entry, completed window = first :: rest ∧
      usedElems[base % vq.vring.num]? = some entry ∧
      entry.index = first.elem.index ∧ entry.len = first.pushed.getD 0 := by
  cases window with
  | nil => exact absurd rfl pushed
  | cons first rest =>
    cases isPushed : first.pushed with
    | none => simp [completed, isPushed] at pushed
    | some len =>
      obtain ⟨entry, present, recorded⟩ := inFlight.item 0 first rfl
      rw [RingWindow.slot, RingWindow.offset_zero, Nat.add_zero] at present
      have here := congrArg (fun entries => entries[base % vq.vring.num]?) same
      simp only [List.getElem?_map, present, Option.map_some] at here
      obtain ⟨found, foundAt, unmarked⟩ := Option.map_eq_some_iff.mp here
      refine ⟨first, completed rest, found, by simp [completed, isPushed], foundAt, ?_, ?_⟩
      · have index := congrArg VirtQueueElement.index unmarked
        exact index.trans recorded.index
      · have length := congrArg VirtQueueElement.len unmarked
        rw [isPushed, Option.getD_some]
        exact length.trans (recorded.len len isPushed)

section Finish

variable {total : UInt32}
  (flushed : Flushing base vq (completed window) (remaining window) total usedElems usedRing
    descRing)
  (same : usedElems.map unmark = vq.usedElems.map unmark)
  (held : descsOf window ≤ vq.inuse.toNat)
include flushed held

omit numPos numSmall covers inFlight counter in
theorem Flushing.inuse_sub :
    (vq.inuse - total).toNat + descsOf (completed window) = vq.inuse.toNat := by
  have parts := descsOf_completed_add window
  have sum := flushed.counted
  rw [UInt32.toNat_sub_of_le _ _ (UInt32.le_iff_toNat_le.mpr (by omega))]
  omega

include same

omit numPos numSmall covers inFlight counter in
theorem orderedFlushed_split (split : vq.vdev.ringPacked = false) (valid : Bool) :
    OrderedFlushed base window vq
      { vq with
        usedElems, usedRing, descRing
        usedIdx := vq.usedIdx + total.toUInt16
        inuse := vq.inuse - total
        signalledUsedValid := valid } := by
  have lengths := congrArg List.length same
  rw [List.length_map, List.length_map] at lengths
  have moved : total.toUInt16 = UInt16.ofNat (descsOf (completed window)) := by
    rw [← flushed.counted]
    rfl
  refine ⟨rfl, rfl, rfl, lengths, flushed.inFlight, flushed.inuse_sub held, fun _ => ?_,
    fun packed => ?_, flushed.content.usedRing, fun packed => ?_⟩
  · rw [← moved]
  · rw [split] at packed
    cases packed
  · rw [split] at packed
    cases packed

omit covers in
theorem orderedFlushed_packed (packed : vq.vdev.ringPacked = true)
    {first : OrderedElem} {rest : List OrderedElem} {entry : VirtQueueElement}
    (pushed : completed window = first :: rest)
    (index : entry.index = first.elem.index) (len : entry.len = first.pushed.getD 0) :
    let moved := packedAdvanceUsed
      (virtqueuePackedFillDesc { vq with usedElems, usedRing, descRing } entry 0) total
    OrderedFlushed base window vq { moved with inuse := moved.inuse - total } := by
  intro moved
  obtain ⟨area, counter⟩ := counter packed
  have lengths := congrArg List.length same
  rw [List.length_map, List.length_map] at lengths
  have parts := descsOf_completed_add window
  have fits : descsOf window ≤ vq.vring.num := inFlight.fits
  have sum := flushed.counted
  have short : total.toNat ≤ vq.vring.num := by omega
  have position : vq.usedIdx.toNat = base % vq.vring.num := congrArg LapCounter.index counter
  obtain ⟨ring, framed⟩ := virtqueuePackedFillDesc_frame
    { vq with usedElems, usedRing, descRing } entry 0
  obtain ⟨idx, wrap, valid, advanced⟩ :=
    packedAdvanceUsed_frame { vq with usedElems, usedRing, descRing := ring } total
  have counted : usedCounter moved =
      LapCounter.ofNumber vq.vring.num (base + descsOf (completed window)) := by
    rw [← sum, ← LapCounter.ofNumber_advance numPos base short, ← counter]
    simp only [moved, framed]
    exact usedCounter_advance numSmall (by rw [position]; exact Nat.mod_lt _ numPos) short
  simp only [moved, framed, advanced] at counted ⊢
  refine ⟨rfl, rfl, rfl, lengths, flushed.inFlight, flushed.inuse_sub held, fun split => ?_,
    fun _ => counted, fun split => ?_, fun _ cached before isBase holds => ?_⟩
  · rw [packed] at split
    cases split
  · rw [packed] at split
    cases split
  · subst isBase
    have writing := flushed.content.descRing packed cached before rfl holds
    have atHead : (0 : UInt32).toNat ≤ vq.vring.num := Nat.zero_le _
    have wrote := virtqueuePackedFillDesc_entry { vq with usedElems, usedRing, descRing } numPos
      numSmall area cached counter atHead index len
    rw [framed] at wrote
    have ringEq : ring = _ := congrArg VirtQueue.descRing wrote
    rw [pushed] at writing ⊢
    rw [ringEq]
    exact writing

end Finish

theorem virtqueueOrderedFlush_done (area : vq.vdev.ringPacked = false → vq.vring.used ≠ 0)
    (head : vq.usedIdx.toNat % vq.vring.num = base % vq.vring.num)
    (held : descsOf window ≤ vq.inuse.toNat) :
    ∃ after, virtqueueOrderedFlush vq = .ok after ∧ OrderedFlushed base window vq after := by
  have ringArea : ¬(if vq.vdev.ringPacked = true then vq.vring.desc else vq.vring.used) = 0 := by
    grind
  have inside := Nat.lt_of_lt_of_le (Nat.mod_lt base numPos) covers
  have present := List.getElem?_eq_getElem inside
  have filled := head_filled inFlight present
  obtain ⟨total, usedElems, usedRing, descRing, ran, flushed, same⟩ :=
    orderedFlushRun_head numPos numSmall counter covers inFlight
  unfold virtqueueOrderedFlush
  dsimp only
  rw [if_neg ringArea, head, readAt_of_getElem? present, bind_ok]
  by_cases pushed : completed window = []
  · rw [if_pos (by simpa [pushed] using filled)]
    exact ⟨vq, rfl, orderedFlushed_nothing pushed inFlight fun packed => (counter packed).2⟩
  · rw [if_neg (by simpa [pushed] using filled), ran, bind_ok]
    cases packed : vq.vdev.ringPacked with
    | false =>
      simp only [Bool.false_eq_true, if_false]
      exact ⟨_, rfl, orderedFlushed_split flushed same held packed _⟩
    | true =>
      obtain ⟨first, rest, entry, isFirst, entryHere, index, len⟩ :=
        head_entry inFlight pushed same
      have position : vq.usedIdx.toNat = base % vq.vring.num :=
        congrArg LapCounter.index (counter packed).2
      simp only [if_true]
      rw [position, readAt_of_getElem? entryHere, bind_ok]
      exact ⟨_, rfl, orderedFlushed_packed numPos numSmall counter inFlight flushed same held
        packed isFirst index len⟩

end Flush

end QemuGzvm.Virtio
