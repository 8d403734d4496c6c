import QemuGzvm.Gzvm.Slots

/-!
Contract: the sorted id array, as a list of ids.

Owns the meaning of the live part `sorted_ids[0..nr_active_slots)`: what the
binary search, the linear scans and the two `memmove` edits do to it. The slot
array is only read here.

`Indexed` is all these functions need: both arrays have the allocated length,
every live id names a slot, and the live ids are in order of their start
addresses. It says nothing on which slots are active, so it also holds in the
middle of an insertion, when the new slot is written but not yet listed.
-/

namespace QemuGzvm.Gzvm

open QemuGzvm.Library
open QemuGzvm.Memory

/-- `sorted_ids[0..nr_active_slots)`. -/
def GZVMState.activeIds (s : GZVMState) : List Nat := s.sortedIds.take s.nrActiveSlots

/-- `slots[id]`, and an empty slot outside the array. -/
def GZVMState.slotAt (s : GZVMState) (id : Nat) : GzvmSlot := s.slots[id]?.getD {}

structure Indexed (s : GZVMState) : Prop where
  slotsLength : s.slots.length = s.nrSlotsAllocated
  sortedLength : s.sortedIds.length = s.nrSlotsAllocated
  activeLe : s.nrActiveSlots ≤ s.nrSlotsAllocated
  inside : ∀ id ∈ s.activeIds, id < s.nrSlotsAllocated
  sorted : s.activeIds.Pairwise fun low high => (s.slotAt low).start ≤ (s.slotAt high).start

section Reads

variable {s : GZVMState}

theorem Indexed.activeIds_length (indexed : Indexed s) :
    s.activeIds.length = s.nrActiveSlots := by
  grind [Indexed, GZVMState.activeIds]

theorem sortedIds_split (s : GZVMState) :
    s.sortedIds = s.activeIds ++ s.sortedIds.drop s.nrActiveSlots :=
  (List.take_append_drop _ _).symm

theorem Indexed.readAt_slots (indexed : Indexed s) {id : Nat}
    (inside : id < s.nrSlotsAllocated) : readAt s.slots id = .ok (s.slotAt id) := by
  have bound : id < s.slots.length := by rw [indexed.slotsLength]; exact inside
  apply readAt_of_getElem?
  simp [GZVMState.slotAt, List.getElem?_eq_getElem bound]

theorem readAt_activeIds {position : Nat} (live : position < s.activeIds.length) :
    readAt s.sortedIds position = .ok s.activeIds[position] := by
  apply readAt_of_getElem?
  rw [sortedIds_split s, List.getElem?_append_left live, List.getElem?_eq_getElem live]

theorem Indexed.sortedSlot_eq (indexed : Indexed s) {position : Nat}
    (live : position < s.activeIds.length) :
    sortedSlot s position = .ok (s.slotAt s.activeIds[position]) := by
  rw [sortedSlot, readAt_activeIds live]
  exact indexed.readAt_slots (indexed.inside _ (List.getElem_mem live))

/-- The binary search cuts the live ids at `addr`: lower starts stand before the
position it returns, the others from it on. -/
theorem Indexed.findFirstGe_spec (indexed : Indexed s) (addr : Nat) :
    ∃ before after, s.activeIds = before ++ after ∧
      gzvmFindFirstGe s addr = .ok before.length ∧
      (∀ id ∈ before, (s.slotAt id).start < addr) ∧
      (∀ id ∈ after, addr ≤ (s.slotAt id).start) := by
  have activeLength := indexed.activeIds_length
  let passes : Nat → Bool := fun position =>
    decide (addr ≤ (s.slotAt (s.activeIds.getD position 0)).start)
  have total : ∀ position, position < s.nrActiveSlots →
      ((sortedSlot s position).bind fun slot => Except.ok (decide (addr ≤ slot.start))) =
        (.ok (passes position) : Checked Bool) := by
    intro position live
    have live' : position < s.activeIds.length := by omega
    rw [indexed.sortedSlot_eq live']
    simp [passes, bind_ok, List.getD_eq_getElem?_getD, List.getElem?_eq_getElem live']
  have monotone : ∀ low high, low ≤ high → high < s.nrActiveSlots →
      passes low = true → passes high = true := by
    intro low high order live lowPasses
    have highLive : high < s.activeIds.length := by omega
    have lowLive : low < s.activeIds.length := by omega
    simp only [passes, List.getD_eq_getElem?_getD, List.getElem?_eq_getElem lowLive,
      List.getElem?_eq_getElem highLive, Option.getD_some, decide_eq_true_eq] at lowPasses ⊢
    rcases Nat.eq_or_lt_of_le order with same | strict
    · subst same
      exact lowPasses
    · exact Nat.le_trans lowPasses
        (List.pairwise_iff_getElem.mp indexed.sorted low high lowLive highLive strict)
  obtain ⟨found, foundEq, foundLe, below, above⟩ := bisect_spec total monotone s.nrActiveSlots 0
    ((s.nrActiveSlots : Int) - 1) s.nrActiveSlots (by omega) (by omega) (by omega) (by omega)
    (by omega) (fun index negative => absurd negative (by omega))
    (fun index late live => absurd late (by omega))
  refine ⟨s.activeIds.take found, s.activeIds.drop found, (List.take_append_drop _ _).symm, ?_,
    ?_, ?_⟩
  · rw [List.length_take, Nat.min_eq_left (by omega)]
    exact foundEq
  · intro id member
    obtain ⟨position, bound, rfl⟩ := List.mem_take_iff_getElem.mp member
    have fails := below position (by omega)
    have live : position < s.activeIds.length := by omega
    simpa [passes, List.getD_eq_getElem?_getD, List.getElem?_eq_getElem live] using fails
  · intro id member
    obtain ⟨position, bound, rfl⟩ := List.mem_drop_iff_getElem.mp member
    have passed := above (found + position) (by omega) (by omega)
    have live : found + position < s.activeIds.length := by omega
    simpa [passes, List.getD_eq_getElem?_getD, List.getElem?_eq_getElem live] using passed

/-- The scan finds the first live slot with this start, size and host address. -/
theorem Indexed.findMatchingSlot_spec (indexed : Indexed s) (start size mem : Nat) :
    (∃ id ∈ s.activeIds,
        gzvmFindMatchingSlotLocked s start size mem = .ok (some id) ∧
        (s.slotAt id).start = start ∧ (s.slotAt id).size = size ∧ (s.slotAt id).mem = mem) ∨
      (gzvmFindMatchingSlotLocked s start size mem = .ok none ∧
        ∀ id ∈ s.activeIds, ¬((s.slotAt id).start = start ∧ (s.slotAt id).size = size ∧
          (s.slotAt id).mem = mem)) := by
  have activeLength := indexed.activeIds_length
  -- The scan from `i` looks at the live ids from number `i` on.
  have scan : ∀ remaining i, i + remaining = s.nrActiveSlots →
      (∃ id ∈ s.activeIds.drop i,
          findMatchingSlotFrom s start size mem remaining i = .ok (some id) ∧
          (s.slotAt id).start = start ∧ (s.slotAt id).size = size ∧ (s.slotAt id).mem = mem) ∨
        (findMatchingSlotFrom s start size mem remaining i = .ok none ∧
          ∀ id ∈ s.activeIds.drop i, ¬((s.slotAt id).start = start ∧
            (s.slotAt id).size = size ∧ (s.slotAt id).mem = mem)) := by
    intro remaining
    induction remaining with
    | zero =>
      intro i total
      right
      refine ⟨rfl, ?_⟩
      rw [List.drop_of_length_le (by omega)]
      simp
    | succ remaining ih =>
      intro i total
      have live : i < s.activeIds.length := by omega
      have here := indexed.inside _ (List.getElem_mem live)
      have dropEq := List.drop_eq_getElem_cons live
      rw [dropEq]
      simp only [findMatchingSlotFrom, readAt_activeIds live, indexed.readAt_slots here,
        bind_ok]
      by_cases same : (s.slotAt s.activeIds[i]).start = start ∧
          (s.slotAt s.activeIds[i]).size = size ∧ (s.slotAt s.activeIds[i]).mem = mem
      · left
        exact ⟨s.activeIds[i], List.mem_cons_self, by rw [if_pos same], same⟩
      · grind
  simpa [gzvmFindMatchingSlotLocked] using scan s.nrActiveSlots 0 (by omega)

/-- The signal handler's snapshot never reads outside the arrays. -/
theorem Indexed.signalUpdateRegions_ok {h : Host} (indexed : Indexed h.state) :
    ∃ ranges, gzvmSignalUpdateRegions h = .ok { h with signalHvaRanges := ranges } := by
  have activeLength := indexed.activeIds_length
  have scan : ∀ remaining i room, i + remaining = h.state.nrActiveSlots →
      ∃ ranges, signalRangesFrom h.state remaining i room = .ok ranges := by
    intro remaining
    induction remaining with
    | zero => exact fun i room _ => ⟨[], by cases room <;> rfl⟩
    | succ remaining ih =>
      intro i room total
      cases room with
      | zero => exact ⟨[], rfl⟩
      | succ room =>
        have live : i < h.state.activeIds.length := by omega
        simp only [signalRangesFrom, indexed.sortedSlot_eq live, bind_ok]
        split
        · obtain ⟨ranges, eq⟩ := ih (i + 1) room (by omega)
          rw [eq]
          exact ⟨_, rfl⟩
        · exact ih (i + 1) (room + 1) (by omega)
  obtain ⟨ranges, eq⟩ := scan h.state.nrActiveSlots 0 gzvmSignalMaxRegions (by omega)
  exact ⟨ranges, by rw [gzvmSignalUpdateRegions, eq]; rfl⟩

end Reads

/-! ### Edits -/

section Edits

variable {s : GZVMState}

/-- Inserting a slot id lists it at its place by start address and touches no
other field. -/
theorem Indexed.insert_spec (indexed : Indexed s) (slotId : Nat)
    (inside : slotId < s.nrSlotsAllocated) (room : s.nrActiveSlots < s.nrSlotsAllocated) :
    ∃ before after sortedIds, s.activeIds = before ++ after ∧
      gzvmUpdateSortedIds s slotId true =
        .ok { s with sortedIds := sortedIds, nrActiveSlots := s.nrActiveSlots + 1 } ∧
      sortedIds.length = s.sortedIds.length ∧
      sortedIds.take (s.nrActiveSlots + 1) = before ++ slotId :: after ∧
      (∀ id ∈ before, (s.slotAt id).start < (s.slotAt slotId).start) ∧
      (∀ id ∈ after, (s.slotAt slotId).start ≤ (s.slotAt id).start) := by
  obtain ⟨before, after, split, found, below, above⟩ :=
    indexed.findFirstGe_spec (s.slotAt slotId).start
  have activeLength := indexed.activeIds_length
  have splitLength : before.length + after.length = s.nrActiveSlots := by
    rw [← activeLength, split, List.length_append]
  have spareNonempty : s.sortedIds.drop s.nrActiveSlots ≠ [] := by
    intro empty
    have := List.drop_eq_nil_iff.mp empty
    have := indexed.sortedLength
    omega
  obtain ⟨spare, rest, spareEq⟩ := List.exists_cons_of_ne_nil spareNonempty
  have cells : s.sortedIds = before ++ after ++ spare :: rest := by
    rw [sortedIds_split s, split, spareEq]
  have opened := memmove_open before after rest spare slotId
  rw [← cells] at opened
  refine ⟨before, after, before ++ slotId :: after ++ rest, split, ?_, ?_, ?_, below, above⟩
  · simp only [gzvmUpdateSortedIds, if_true, sortedIdsInsert, indexed.readAt_slots inside, found,
      bind_ok]
    rw [show s.nrActiveSlots - before.length = after.length by omega]
    rw [opened, bind_ok]
  · rw [cells]
    simp
    omega
  · rw [show s.nrActiveSlots + 1 = (before ++ slotId :: after).length by simp; omega,
      List.take_left]

/-- The walk over the slots of one start address drops the id it looks for. -/
private theorem removeFrom_spec (indexed : Indexed s) (slotId gpa : Nat) (after : List Nat) :
    ∀ (walked before : List Nat) (remaining : Nat),
      s.activeIds = before ++ walked ++ slotId :: after →
      (∀ id ∈ walked, (s.slotAt id).start = gpa ∧ id ≠ slotId) →
      (s.slotAt slotId).start = gpa → walked.length < remaining →
      ∃ sortedIds, sortedIdsRemoveFrom s slotId gpa remaining before.length =
          .ok { s with sortedIds := sortedIds, nrActiveSlots := s.nrActiveSlots - 1 } ∧
        sortedIds.length = s.sortedIds.length ∧
        sortedIds.take (s.nrActiveSlots - 1) = before ++ walked ++ after := by
  intro walked
  have activeLength := indexed.activeIds_length
  induction walked with
  | nil =>
    intro before remaining split _ startEq enough
    obtain ⟨remaining, rfl⟩ : ∃ fewer, remaining = fewer + 1 := ⟨remaining - 1, by omega⟩
    have splitLength : before.length + after.length + 1 = s.nrActiveSlots := by
      rw [← activeLength, split]
      simp
      omega
    have live : before.length < s.activeIds.length := by omega
    have hereEq : s.activeIds[before.length] = slotId := by simp [split]
    have inside := indexed.inside slotId (by rw [split]; simp)
    obtain ⟨spare, closed⟩ := memmove_close before after (s.sortedIds.drop s.nrActiveSlots) slotId
    have cells : s.sortedIds = before ++ slotId :: after ++ s.sortedIds.drop s.nrActiveSlots := by
      conv_lhs => rw [sortedIds_split s, split]
      simp
    rw [← cells] at closed
    refine ⟨before ++ after ++ spare :: s.sortedIds.drop s.nrActiveSlots, ?_, ?_, ?_⟩
    · simp only [sortedIdsRemoveFrom, readAt_activeIds live, hereEq,
        indexed.readAt_slots inside, bind_ok, startEq, if_true]
      rw [show s.nrActiveSlots - before.length - 1 = after.length by omega, closed, bind_ok]
    · rw [cells]
      simp
      omega
    · rw [show s.nrActiveSlots - 1 = (before ++ after).length by simp; omega, List.take_left]
      simp
  | cons first walked ih =>
    intro before remaining split same startEq enough
    obtain ⟨remaining, rfl⟩ : ∃ fewer, remaining = fewer + 1 := ⟨remaining - 1, by omega⟩
    have live : before.length < s.activeIds.length := by rw [split]; simp
    have hereEq : s.activeIds[before.length] = first := by simp [split]
    have inside := indexed.inside first (by rw [split]; simp)
    obtain ⟨firstStart, firstNe⟩ := same first (by simp)
    obtain ⟨sortedIds, removed, lengthEq, taken⟩ :=
      ih (before ++ [first]) remaining (by rw [split]; simp)
        (fun id member => same id (List.mem_cons_of_mem _ member)) startEq
        (by simp at enough; omega)
    refine ⟨sortedIds, ?_, lengthEq, by rw [taken]; simp⟩
    simp only [sortedIdsRemoveFrom, readAt_activeIds live, hereEq,
      indexed.readAt_slots inside, bind_ok, firstStart, if_true, if_neg firstNe]
    simpa using removed

/-- Removing a listed slot id erases it from the live part and touches no other
field. -/
theorem Indexed.remove_spec (indexed : Indexed s) {slotId : Nat} (member : slotId ∈ s.activeIds) :
    ∃ sortedIds, gzvmUpdateSortedIds s slotId false =
        .ok { s with sortedIds := sortedIds, nrActiveSlots := s.nrActiveSlots - 1 } ∧
      sortedIds.length = s.sortedIds.length ∧
      sortedIds.take (s.nrActiveSlots - 1) = s.activeIds.erase slotId := by
  obtain ⟨before, after, split, found, below, above⟩ :=
    indexed.findFirstGe_spec (s.slotAt slotId).start
  have activeLength := indexed.activeIds_length
  have notBefore : slotId ∉ before := fun inBefore => Nat.lt_irrefl _ (below slotId inBefore)
  have inAfter : slotId ∈ after := by
    rw [split, List.mem_append] at member
    exact member.resolve_left notBefore
  obtain ⟨walked, rest, afterEq, notWalked⟩ := List.eq_append_cons_of_mem inAfter
  have cut : s.activeIds = before ++ walked ++ slotId :: rest := by rw [split, afterEq]; simp
  -- Between the found position and the slot, starts are squeezed to its start.
  have same : ∀ id ∈ walked, (s.slotAt id).start = (s.slotAt slotId).start ∧ id ≠ slotId := by
    grind [Indexed]
  have enough : walked.length < s.nrActiveSlots - before.length := by
    rw [← activeLength, cut]
    simp
  obtain ⟨sortedIds, removed, lengthEq, taken⟩ := removeFrom_spec indexed slotId
    (s.slotAt slotId).start rest walked before _ cut same rfl enough
  refine ⟨sortedIds, ?_, lengthEq, ?_⟩
  · simp only [gzvmUpdateSortedIds, Bool.false_eq_true, if_false, found, bind_ok,
      indexed.readAt_slots (indexed.inside slotId member)]
    exact removed
  · rw [taken, cut, List.erase_append_right _ (by simp [notBefore, notWalked]), List.erase_cons_head]

end Edits

end QemuGzvm.Gzvm
