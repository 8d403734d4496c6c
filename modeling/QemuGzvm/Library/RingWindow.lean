import QemuGzvm.Library.Ring
import Mathlib.Algebra.Order.BigOperators.Group.List
import Mathlib.Algebra.Order.Group.Nat

/-!
Contract: items of different lengths that lie one behind the other on a ring.

Owns:
- the offset of an item in a window of items and the extent of the window;
- `Laid`: a ring of cells in which the first slot of every item of a window holds what
  the item needs, and every other cell is idle;
- the three ways such a window changes: an item comes behind the last one, an item
  changes without its length, and the first item leaves;
- `Written`: a ring to which the items of a log were written, each at its first slot.

A window is known by the number of the slot it starts at, counted without wrapping
around.
-/

set_option autoImplicit false

namespace QemuGzvm.Library

namespace RingWindow

universe u v

variable {α : Type u} {β : Type v} (len : α → Nat)

def extent (window : List α) : Nat := (window.map len).sum

/-- The slots of the items before item `place`. -/
def offset (window : List α) (place : Nat) : Nat := extent len (window.take place)

section Offsets

variable {len} {window : List α} {place : Nat} {item : α}

@[simp] theorem extent_nil : extent len ([] : List α) = 0 := rfl

theorem extent_cons (item : α) (window : List α) :
    extent len (item :: window) = len item + extent len window := List.sum_cons

theorem extent_append (front back : List α) :
    extent len (front ++ back) = extent len front + extent len back := by
  rw [extent, List.map_append, List.sum_append]
  rfl

theorem extent_concat (front : List α) (item : α) :
    extent len (front ++ [item]) = extent len front + len item := by
  rw [extent_append, extent_cons, extent_nil, Nat.add_zero]

@[simp] theorem offset_zero (window : List α) : offset len window 0 = 0 := rfl

theorem offset_cons_succ (item : α) (window : List α) (place : Nat) :
    offset len (item :: window) (place + 1) = len item + offset len window place := by
  rw [offset, List.take_succ_cons, extent_cons]
  rfl

theorem offset_succ (present : window[place]? = some item) :
    offset len window (place + 1) = offset len window place + len item := by
  rw [offset, List.take_add_one, present, extent_append, offset]
  rfl

theorem offset_length (window : List α) : offset len window window.length = extent len window := by
  rw [offset, List.take_length]

theorem offset_append_left (back : List α) (inside : place ≤ window.length) :
    offset len (window ++ back) place = offset len window place := by
  rw [offset, List.take_append_of_le_length inside]
  rfl

theorem offset_append_right (front : List α) (place : Nat) :
    offset len (front ++ window) (front.length + place) =
      extent len front + offset len window place := by
  rw [offset, List.take_length_add_append, extent_append]
  rfl

theorem offset_set {other : α} (present : window[place]? = some other) (same : len item = len other)
    (at_ : Nat) : offset len (window.set place item) at_ = offset len window at_ := by
  induction window generalizing place at_ with
  | nil => cases present
  | cons first rest ih =>
    cases at_ with
    | zero => rfl
    | succ at_ =>
      cases place with
      | zero =>
        cases present
        rw [List.set_cons_zero, offset_cons_succ, offset_cons_succ, same]
      | succ place =>
        rw [List.set_cons_succ, offset_cons_succ, offset_cons_succ,
          ih present]

theorem extent_set {other : α} (present : window[place]? = some other)
    (same : len item = len other) :
    extent len (window.set place item) = extent len window := by
  rw [← offset_length, List.length_set, offset_set present same, offset_length]

theorem offset_lt_offset (positive : ∀ item ∈ window, 0 < len item) {first second : Nat}
    (order : first < second) (inside : second ≤ window.length) :
    offset len window first < offset len window second := by
  induction order with
  | refl =>
    have present := List.getElem?_eq_getElem (l := window) inside
    rw [offset_succ present]
    exact Nat.lt_add_of_pos_right (positive _ (List.getElem_mem inside))
  | step _ ih =>
    have present := List.getElem?_eq_getElem (l := window) inside
    rw [offset_succ present]
    exact Nat.lt_of_lt_of_le (ih (Nat.le_of_lt inside)) (Nat.le_add_right _ _)

theorem length_le_extent (positive : ∀ item ∈ window, 0 < len item) :
    window.length ≤ extent len window := by
  grind [extent, List.length_map, List.length_le_sum_of_one_le]

theorem extent_eq_length (single : ∀ item ∈ window, len item = 1) :
    extent len window = window.length := by
  rw [extent, List.map_congr_left single, List.map_const', List.sum_replicate]
  exact Nat.mul_one _

theorem len_le_extent (member : item ∈ window) : len item ≤ extent len window :=
  List.single_le_sum (fun _ _ => Nat.zero_le _) _ (List.mem_map_of_mem member)

end Offsets

/-- The first slot of item `place` of a window that starts at slot number `start`. -/
def slot (slots start : Nat) (window : List α) (place : Nat) : Nat :=
  (start + offset len window place) % slots

/-- `holds` relates every item to the cell at its first slot. -/
def Items (holds : α → β → Prop) (slots : Nat) (cells : List β) (start : Nat)
    (window : List α) : Prop :=
  ∀ place item, window[place]? = some item →
    ∃ cell, cells[slot len slots start window place]? = some cell ∧ holds item cell

/-- `cells` carries a window that starts at slot number `start`: every item has its cell,
and all other cells are `idle`. -/
structure Laid (holds : α → β → Prop) (idle : β → Prop) (slots : Nat) (cells : List β)
    (start : Nat) (window : List α) : Prop where
  item : Items len holds slots cells start window
  other : ∀ index cell, cells[index]? = some cell →
    (∀ place, place < window.length → index ≠ slot len slots start window place) → idle cell
  positive : ∀ item ∈ window, 0 < len item
  fits : extent len window ≤ slots

section Laid

variable {len} {holds : α → β → Prop} {idle : β → Prop} {slots start : Nat} {cells : List β}
  {window : List α} {item : α} {cell : β}

theorem slot_cons_succ (slots start : Nat) (item : α) (window : List α) (place : Nat) :
    slot len slots start (item :: window) (place + 1) =
      slot len slots (start + len item) window place := by
  rw [slot, slot, offset_cons_succ, Nat.add_assoc]

theorem Items.tail (items : Items len holds slots cells start (item :: window)) :
    Items len holds slots cells (start + len item) window := by
  intro place other present
  rw [← slot_cons_succ]
  exact items (place + 1) other present

theorem Laid.nil (idleCells : ∀ cell ∈ cells, idle cell) :
    Laid len holds idle slots cells start [] where
  item := fun _ _ present => by cases present
  other := fun _ _ present _ => idleCells _ (List.mem_of_getElem? present)
  positive := fun _ member => by cases member
  fits := Nat.zero_le _

section

variable (laid : Laid len holds idle slots cells start window) {first second place : Nat}
include laid

theorem Laid.slot_ne (order : first < second) (inside : second < window.length) :
    slot len slots start window first ≠ slot len slots start window second := by
  have grows := offset_lt_offset laid.positive order (Nat.le_of_lt inside)
  have last := offset_lt_offset laid.positive inside (Nat.le_refl _)
  rw [offset_length] at last
  have fits := laid.fits
  exact Ring.mod_ne_of_lt (by omega) (by omega)

theorem Laid.slot_ne' (apart : first ≠ second) (firstInside : first < window.length)
    (secondInside : second < window.length) :
    slot len slots start window first ≠ slot len slots start window second := by
  rcases Nat.lt_or_gt_of_ne apart with order | order
  · exact laid.slot_ne order secondInside
  · exact (laid.slot_ne order firstInside).symm

/-- No item starts at the slot behind the window, if there is room behind it. -/
theorem Laid.end_ne (room : extent len window < slots) (inside : place < window.length) :
    slot len slots start window place ≠ (start + extent len window) % slots := by
  have last := offset_lt_offset laid.positive inside (Nat.le_refl _)
  rw [offset_length] at last
  exact Ring.mod_ne_of_lt (by omega) (by omega)

theorem Laid.push (positive : 0 < len item) (room : extent len window + len item ≤ slots)
    (enough : slots ≤ cells.length) (held : holds item cell) :
    Laid len holds idle slots (cells.set ((start + extent len window) % slots) cell) start
      (window ++ [item]) := by
  have newSlot : slot len slots start (window ++ [item]) window.length =
      (start + extent len window) % slots := by
    rw [slot, offset_append_left _ (Nat.le_refl _), offset_length]
  have oldSlot (place : Nat) (inside : place < window.length) :
      slot len slots start (window ++ [item]) place = slot len slots start window place := by
    rw [slot, offset_append_left _ (Nat.le_of_lt inside)]
    rfl
  have apart (place : Nat) (inside : place < window.length) :=
    laid.end_ne (by omega) inside
  constructor
  · intro place other present
    rcases Nat.lt_trichotomy place window.length with inside | last | beyond
    · rw [List.getElem?_append_left inside] at present
      obtain ⟨found, at_, matching⟩ := laid.item place other present
      refine ⟨found, ?_, matching⟩
      rw [oldSlot place inside, List.getElem?_set_ne (apart place inside).symm]
      exact at_
    · subst last
      rw [List.getElem?_concat_length] at present
      cases present
      refine ⟨cell, ?_, held⟩
      rw [newSlot, List.getElem?_set_self]
      exact Nat.lt_of_lt_of_le (Nat.mod_lt _ (by omega)) enough
    · grind
  · grind [Laid]
  · grind [Laid]
  · rw [extent_concat]
    exact room

theorem Laid.update {old : α} (present : window[place]? = some old) (same : len item = len old)
    (held : holds item cell) :
    Laid len holds idle slots (cells.set (slot len slots start window place) cell) start
      (window.set place item) := by
  have unmoved (at_ : Nat) : slot len slots start (window.set place item) at_ =
      slot len slots start window at_ := by
    rw [slot, offset_set present same]
    rfl
  have inside : place < window.length := (List.getElem?_eq_some_iff.mp present).1
  constructor
  · intro at_ other found
    rw [unmoved]
    by_cases here : place = at_
    · subst here
      rw [List.getElem?_set_self inside] at found
      cases found
      obtain ⟨before, beforeAt, -⟩ := laid.item place old present
      refine ⟨cell, ?_, held⟩
      rw [List.getElem?_set_self (List.getElem?_eq_some_iff.mp beforeAt).1]
    · rw [List.getElem?_set_ne here] at found
      obtain ⟨kept, keptAt, matching⟩ := laid.item at_ other found
      refine ⟨kept, ?_, matching⟩
      rw [List.getElem?_set_ne]
      · exact keptAt
      · exact laid.slot_ne' here inside (List.getElem?_eq_some_iff.mp found).1
  · grind [Laid]
  · grind [Laid]
  · rw [extent_set present same]
    exact laid.fits

end

theorem Laid.drop (laid : Laid len holds idle slots cells start (item :: window))
    (idleCell : idle cell) :
    Laid len holds idle slots (cells.set (start % slots) cell) (start + len item) window := by
  have first : slot len slots start (item :: window) 0 = start % slots := rfl
  have apart (place : Nat) (inside : place < window.length) :
      start % slots ≠ slot len slots start (item :: window) (place + 1) := by
    rw [← first]
    exact laid.slot_ne (Nat.succ_pos _) (Nat.succ_lt_succ inside)
  constructor
  · intro place other present
    have inside := (List.getElem?_eq_some_iff.mp present).1
    obtain ⟨kept, keptAt, matching⟩ := laid.item (place + 1) other present
    refine ⟨kept, ?_, matching⟩
    rw [← slot_cons_succ, List.getElem?_set_ne (apart place inside)]
    exact keptAt
  · intro index other present outside
    by_cases here : start % slots = index
    · grind
    · rw [List.getElem?_set_ne here] at present
      apply laid.other index other present
      intro place inside
      cases place with
      | zero => exact Ne.symm here
      | succ place =>
        rw [slot_cons_succ]
        exact outside place (Nat.lt_of_succ_lt_succ inside)
  · intro other member
    exact laid.positive other (List.mem_cons_of_mem _ member)
  · have fits := laid.fits
    rw [extent_cons] at fits
    omega

end Laid

/-- The items of `log` were written to a ring of `slots` slots, each at its first slot as
`entry` with the number of that slot, and the other slots were never written. -/
structure Written (entry : Nat → α → β) (slots : Nat) (ring : List (Option β)) (log : List α) :
    Prop where
  length : ring.length = slots
  positive : ∀ item ∈ log, 0 < len item
  kept : ∀ place item, log[place]? = some item →
    extent len log ≤ offset len log place + slots →
      ring[offset len log place % slots]? = some (some (entry (offset len log place) item))
  blank : ∀ index, index < slots →
    (∀ place, place < log.length → offset len log place % slots ≠ index) →
      ring[index]? = some none

section Written

variable {len} {entry : Nat → α → β} {slots : Nat} {ring : List (Option β)} {log : List α}

theorem Written.nil (entry : Nat → α → β) (slots : Nat) :
    Written len entry slots (List.replicate slots none) [] where
  length := List.length_replicate
  positive := fun _ member => by cases member
  kept := fun _ _ present => by cases present
  blank := fun _ inside _ => by simp [inside]

theorem Written.append (written : Written len entry slots ring log) (some : 0 < slots) (item : α)
    (own : 0 < len item) :
    Written len entry slots (ring.set (extent len log % slots) (entry (extent len log) item))
      (log ++ [item]) := by
  have inside : extent len log % slots < ring.length := by
    rw [written.length]
    exact Nat.mod_lt _ some
  have newOffset : offset len (log ++ [item]) log.length = extent len log := by
    rw [offset_append_left _ (Nat.le_refl _), offset_length]
  constructor
  · rw [List.length_set]
    exact written.length
  · grind [Written]
  · intro place other present recent
    rw [extent_concat] at recent
    rcases Nat.lt_trichotomy place log.length with older | last | beyond
    · -- An older item that is still due in the ring has another slot.
      rw [offset_append_left _ (Nat.le_of_lt older)] at recent ⊢
      have before := offset_lt_offset written.positive older (Nat.le_refl _)
      rw [offset_length] at before
      rw [List.getElem?_append_left older] at present
      rw [List.getElem?_set_ne (Ring.mod_ne_of_lt before (by omega)).symm]
      exact written.kept place other present (by omega)
    · grind
    · grind
  · intro index inRing apart
    rw [List.length_append, List.length_singleton] at apart
    have notNew := apart log.length (Nat.lt_succ_self _)
    rw [newOffset] at notNew
    rw [List.getElem?_set_ne notNew]
    apply written.blank index inRing
    intro place older
    rw [← offset_append_left [item] (Nat.le_of_lt older)]
    exact apart place (Nat.lt_succ_of_lt older)

end Written

end RingWindow

end QemuGzvm.Library
