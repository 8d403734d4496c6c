import QemuGzvm.Library.RingWindow
import QemuGzvm.Virtio.PackedCounters

/-!
Contract: filling the elements of a virtqueue with `VIRTIO_F_IN_ORDER`.

Owns:
- `InFlight`: `used_elems` as a ring that carries the elements in flight, each at the
  slot of its first descriptor;
- `FillReaches`, when the walk of `virtqueue_ordered_fill` comes to an element, and that
  this is when the element's entry is marked.

The walk adds to `steps` the entry it comes to before it wraps around the end of the
ring, and it bounds `steps` by the descriptors in flight modulo the size of the ring.
-/

namespace QemuGzvm.Virtio

open QemuGzvm.Library

/-! ### Elements in flight -/

/-- An element of an in-order queue; `pushed` is the length its entry is filled with. -/
structure OrderedElem where
  elem : VirtQueueElement
  pushed : Option UInt32 := none
deriving DecidableEq, Repr

def OrderedElem.slots (item : OrderedElem) : Nat := item.elem.ndescs.toNat

/-- The entry of `used_elems` for an element. -/
structure Recorded (item : OrderedElem) (entry : VirtQueueElement) : Prop where
  index : entry.index = item.elem.index
  ndescs : entry.ndescs = item.elem.ndescs
  filled : entry.inOrderFilled = item.pushed.isSome
  len : ∀ len, item.pushed = some len → entry.len = len

/-- `used_elems` carries the elements in flight, from descriptor number `start` on, and
no other entry is filled. -/
abbrev InFlight (num : Nat) (usedElems : List VirtQueueElement) (start : Nat)
    (window : List OrderedElem) : Prop :=
  RingWindow.Laid OrderedElem.slots Recorded (fun entry => entry.inOrderFilled = false) num
    usedElems start window

abbrev descsOf (items : List OrderedElem) : Nat := RingWindow.extent OrderedElem.slots items

abbrev entryAt (num start : Nat) (window : List OrderedElem) (place : Nat) : Nat :=
  RingWindow.slot OrderedElem.slots num start window place

/-! ### Filling -/

def markFilled (usedElems : List VirtQueueElement) (i : Nat) (len : UInt32) :
    List VirtQueueElement :=
  usedElems.modify i fun entry => { entry with len, inOrderFilled := true }

variable {usedElems : List VirtQueueElement} {item : OrderedElem} {place start : Nat}
  {window : List OrderedElem}

theorem markFilled_eq {i : Nat} {entry : VirtQueueElement} (present : usedElems[i]? = some entry)
    (len : UInt32) :
    markFilled usedElems i len = usedElems.set i { entry with len, inOrderFilled := true } := by
  rw [markFilled, List.modify_eq_set_getElem?, present]
  rfl

theorem inFlight_fill {num : Nat} (inFlight : InFlight num usedElems start window)
    (present : window[place]? = some item) (len : UInt32) :
    InFlight num (markFilled usedElems (entryAt num start window place) len) start
      (window.set place { item with pushed := some len }) := by
  obtain ⟨entry, entryHere, recorded⟩ := inFlight.item place item present
  rw [markFilled_eq entryHere]
  refine inFlight.update present ?_ ?_
  · rfl
  · exact ⟨recorded.index, recorded.ndescs, rfl, fun _ same => Option.some.inj same⟩

def orderedFillMaxSteps (vq : VirtQueue) : Nat :=
  (vq.lastAvailIdx.toUInt32 - vq.usedIdx.toUInt32).toNat % vq.vring.num

/-- What the walk from entry `i` has added to `steps` when it has passed the elements:
for each of them the `ndescs` it finds behind the element, before it wraps around, if
that is inside the array. -/
def walkSteps (num : Nat) (usedElems : List VirtQueueElement) : Nat → List OrderedElem → Option Nat
  | _, [] => some 0
  | i, item :: rest =>
    usedElems[i + item.slots]?.bind fun there =>
      (walkSteps num usedElems
        (if num ≤ i + item.slots then i + item.slots - num else i + item.slots) rest).map
          (there.ndescs.toNat + ·)

/-- The walk of `virtqueue_ordered_fill` passes the elements `passed`, of which none has
the index it looks for, and is still within `max_steps`. -/
def FillReaches (vq : VirtQueue) (passed : List OrderedElem) (index : UInt32) : Prop :=
  (∀ item ∈ passed, item.elem.index ≠ index) ∧
    ∃ steps ∈ walkSteps vq.vring.num vq.usedElems (vq.usedIdx.toNat % vq.vring.num) passed,
      steps ≤ orderedFillMaxSteps vq

instance (vq : VirtQueue) (passed : List OrderedElem) (index : UInt32) :
    Decidable (FillReaches vq passed index) :=
  inferInstanceAs (Decidable (_ ∧ _))

section Search

variable {num maxSteps fuel steps : Nat} {index len : UInt32} {after : List VirtQueueElement}

theorem orderedFillSearch_at {i : Nat} {here : VirtQueueElement}
    (present : usedElems[i]? = some here) :
    orderedFillSearch num index len maxSteps (fuel + 1) i steps usedElems =
      if maxSteps < steps then .ok usedElems
      else if here.index = index then .ok (markFilled usedElems i len)
      else
        (readAt usedElems (i + here.ndescs.toNat)).bind fun there =>
          orderedFillSearch num index len maxSteps fuel
            (if num ≤ i + here.ndescs.toNat then i + here.ndescs.toNat - num
              else i + here.ndescs.toNat) (steps + there.ndescs.toNat) usedElems := by
  rw [orderedFillSearch, readAt_of_getElem? present, bind_ok, markFilled_eq present]

theorem orderedFillSearch_cons {item : OrderedElem} (numPos : 0 < num)
    (items : RingWindow.Items OrderedElem.slots Recorded num usedElems start (item :: window))
    (short : item.slots ≤ num) :
    orderedFillSearch num index len maxSteps (fuel + 1) (start % num) steps usedElems =
      if maxSteps < steps then .ok usedElems
      else if item.elem.index = index then .ok (markFilled usedElems (start % num) len)
      else
        (readAt usedElems (start % num + item.slots)).bind fun there =>
          orderedFillSearch num index len maxSteps fuel ((start + item.slots) % num)
            (steps + there.ndescs.toNat) usedElems := by
  obtain ⟨here, present, recorded⟩ := items 0 item rfl
  rw [RingWindow.slot, RingWindow.offset_zero, Nat.add_zero] at present
  have length : here.ndescs.toNat = item.slots := by rw [recorded.ndescs]; rfl
  rw [orderedFillSearch_at present, recorded.index, length,
    LapCounter.wrap_add_mod numPos start short]

section

variable (numPos : 0 < num)
  (items : RingWindow.Items OrderedElem.slots Recorded num usedElems start window)
  (short : ∀ item ∈ window, item.slots ≤ num)
include numPos items short

/-- The search marks the element whose index it looks for, if the walk gets there. -/
theorem orderedFillSearch_reaches {place walked : Nat} {target : OrderedElem}
    (present : window[place]? = some target)
    (others : ∀ item ∈ window.take place, item.elem.index ≠ target.elem.index)
    (walk : walkSteps num usedElems (start % num) (window.take place) = some walked)
    (enough : steps + walked ≤ maxSteps) (turns : place < fuel) :
    orderedFillSearch num target.elem.index len maxSteps fuel (start % num) steps usedElems =
      .ok (markFilled usedElems (entryAt num start window place) len) := by
  induction place generalizing window start steps fuel walked with
  | zero =>
    obtain ⟨fuel, rfl⟩ := Nat.exists_eq_add_one_of_ne_zero (Nat.ne_of_gt turns)
    obtain ⟨first, rest, rfl⟩ := List.exists_cons_of_ne_nil (List.ne_nil_of_mem
      (List.mem_of_getElem? present))
    cases present
    rw [orderedFillSearch_cons numPos items (short _ List.mem_cons_self),
      if_neg (by omega), if_pos rfl]
    rfl
  | succ place ih =>
    obtain ⟨fuel, rfl⟩ :=
      Nat.exists_eq_add_one_of_ne_zero (Nat.ne_of_gt (Nat.zero_lt_of_lt turns))
    obtain ⟨first, rest, rfl⟩ := List.exists_cons_of_ne_nil (List.ne_nil_of_mem
      (List.mem_of_getElem? present))
    have firstShort := short first List.mem_cons_self
    rw [List.take_succ_cons, walkSteps, LapCounter.wrap_add_mod numPos start firstShort] at walk
    obtain ⟨there, thereAt, walk⟩ := Option.bind_eq_some_iff.mp walk
    obtain ⟨walkedRest, walkRest, rfl⟩ := Option.map_eq_some_iff.mp walk
    rw [orderedFillSearch_cons numPos items firstShort, if_neg (by omega),
      if_neg (others first List.mem_cons_self), readAt_of_getElem? thereAt, bind_ok, entryAt,
      RingWindow.slot_cons_succ]
    exact ih items.tail (fun item member => short item (.tail _ member)) present
      (fun item member => others item (.tail _ member)) walkRest (by omega) (by omega)

/-- A search for an index that an element in flight has marks the first such element that the
walk gets to, or none. -/
theorem orderedFillSearch_window (found : ∃ item ∈ window, item.elem.index = index)
    (searched : orderedFillSearch num index len maxSteps fuel (start % num) steps usedElems =
      .ok after) :
    after = usedElems ∨ ∃ place item, window[place]? = some item ∧ item.elem.index = index ∧
      (∀ other ∈ window.take place, other.elem.index ≠ index) ∧
      (∃ walked ∈ walkSteps num usedElems (start % num) (window.take place),
        steps + walked ≤ maxSteps) ∧
      after = markFilled usedElems (entryAt num start window place) len := by
  induction window generalizing start steps fuel with
  | nil =>
    obtain ⟨item, member, -⟩ := found
    cases member
  | cons first rest ih =>
    have firstShort := short first List.mem_cons_self
    cases fuel with
    | zero => cases searched
    | succ fuel =>
      rw [orderedFillSearch_cons numPos items firstShort] at searched
      split at searched
      · cases searched
        exact .inl rfl
      next within =>
        split at searched
        next same =>
          cases searched
          exact .inr ⟨0, first, rfl, same, nofun, ⟨0, rfl, Nat.le_of_not_lt within⟩, rfl⟩
        next other =>
          obtain ⟨there, reading, searched⟩ := bind_eq_ok.mp searched
          have behind : ∃ item ∈ rest, item.elem.index = index := by
            grind
          refine (ih items.tail (fun item member => short item (.tail _ member)) behind
            searched).imp_right ?_
          rintro ⟨place, item, present, same, others, ⟨walked, walk, enough⟩, marked⟩
          refine ⟨place + 1, item, present, same, ?_, ⟨there.ndescs.toNat + walked, ?_, ?_⟩, ?_⟩
          · exact List.forall_mem_cons.mpr ⟨other, others⟩
          · rw [List.take_succ_cons, walkSteps, readAt_eq_ok.mp reading,
              LapCounter.wrap_add_mod numPos start firstShort]
            exact Option.map_eq_some_iff.mpr ⟨walked, walk, rfl⟩
          · omega
          · rw [entryAt, RingWindow.slot_cons_succ]
            exact marked

end

end Search

/-- `virtqueue_ordered_fill` marks exactly the entry of an element in flight if and only
if its walk reaches the element. -/
theorem virtqueueOrderedFill_iff {vq : VirtQueue} (numPos : 0 < vq.vring.num)
    (covers : vq.vring.num ≤ vq.usedElems.length)
    (inFlight : InFlight vq.vring.num vq.usedElems start window)
    (head : vq.usedIdx.toNat % vq.vring.num = start % vq.vring.num)
    (present : window[place]? = some item) (waiting : item.pushed = none) (len : UInt32) :
    virtqueueOrderedFill vq item.elem len =
        .ok { vq with
              usedElems :=
                markFilled vq.usedElems (entryAt vq.vring.num start window place) len } ↔
      FillReaches vq (window.take place) item.elem.index := by
  have short : ∀ item ∈ window, item.slots ≤ vq.vring.num := fun item member =>
    (RingWindow.len_le_extent member).trans inFlight.fits
  have inside := (List.getElem?_eq_some_iff.mp present).1
  have turns : place <
      (orderedFillMaxSteps vq + 2) * (vq.usedElems.length + 1) := by
    have few := RingWindow.length_le_extent inFlight.positive
    have fits := inFlight.fits
    have atLeast : vq.usedElems.length + 1 ≤
        (orderedFillMaxSteps vq + 2) * (vq.usedElems.length + 1) :=
      Nat.le_mul_of_pos_left _ (Nat.succ_pos _)
    omega
  rw [FillReaches, head]
  constructor
  · intro filled
    obtain ⟨entry, entryHere, recorded⟩ := inFlight.item place item present
    obtain ⟨after, searched, marked⟩ := bind_eq_ok.mp filled
    rw [head] at searched
    have same : after =
        markFilled vq.usedElems (entryAt vq.vring.num start window place) len :=
      congrArg VirtQueue.usedElems (Except.ok.inj marked)
    -- The entry was not filled, so that it is this one that the search marked.
    have changed : after[entryAt vq.vring.num start window place]? ≠ some entry := by
      rw [same, markFilled_eq entryHere,
        List.getElem?_set_self (List.getElem?_eq_some_iff.mp entryHere).1]
      intro kept
      have unfilled := congrArg VirtQueueElement.inOrderFilled (Option.some.inj kept)
      rw [recorded.filled, waiting] at unfilled
      cases unfilled
    rcases orderedFillSearch_window numPos inFlight.item short
        ⟨item, List.mem_of_getElem? present, rfl⟩ searched with
      rfl | ⟨found, other, foundHere, -, others, ⟨walked, walk, enough⟩, rfl⟩
    · exact absurd entryHere changed
    · by_cases apart : found = place
      · cases apart
        exact ⟨others, walked, walk, by rwa [Nat.zero_add] at enough⟩
      · have ne := inFlight.slot_ne' apart (List.getElem?_eq_some_iff.mp foundHere).1 inside
        rw [markFilled, List.getElem?_modify_ne _ _ ne] at changed
        exact absurd entryHere changed
  · rintro ⟨others, walked, walk, enough⟩
    refine bind_eq_ok.mpr ⟨_, ?_, rfl⟩
    rw [head]
    exact orderedFillSearch_reaches numPos inFlight.item short present others walk
      ((Nat.le_of_eq (Nat.zero_add walked)).trans enough) turns

end QemuGzvm.Virtio
