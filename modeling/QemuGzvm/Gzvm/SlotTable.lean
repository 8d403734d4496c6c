import QemuGzvm.Gzvm.SortedIds

/-!
Contract: the slot table and the kernel's slot map agree after every commit.

Owns:
- `SlotTable`: the invariant of the arrays and counters between operations;
- `KernelAgrees`: the kernel holds exactly the active slots;
- one effect lemma for each slot operation, stated on `registered`, the list of
  what the active slots say to the kernel, up to the order of the list;
- the run theorem over any sequence of listener transactions and any sequence
  of ioctl outcomes.

The effect lemmas are what the later modules use; they never unfold the code.
-/

namespace QemuGzvm.Gzvm

open QemuGzvm.Library
open QemuGzvm.Memory

structure SlotTable (s : GZVMState) : Prop extends Indexed s where
  allocatedPos : 0 < s.nrSlotsAllocated
  allocatedLe : s.nrSlotsAllocated ≤ gzvmMaxMemSlots
  idEq : ∀ i, i < s.nrSlotsAllocated → (s.slotAt i).id = i
  nodup : s.activeIds.Nodup
  active : ∀ id, id ∈ s.activeIds ↔ id < s.nrSlotsAllocated ∧ (s.slotAt id).size ≠ 0

/-- The kernel's map is the map of the active slots. -/
def KernelAgrees (h : Host) : Prop :=
  ∀ id, h.kernel id =
    if (h.state.slotAt id).size = 0 then none else some (h.state.slotAt id).contents

/-- What the active slots say to the kernel, in order of their start. -/
def GZVMState.registered (s : GZVMState) : List KernelSlot :=
  s.activeIds.map fun id => (s.slotAt id).contents

/-- The fields no slot operation touches. -/
structure SameQueues (s s' : GZVMState) : Prop where
  ramBase : s'.ramBase = s.ramBase
  add : s'.transactionAdd = s.transactionAdd
  del : s'.transactionDel = s.transactionDel

/-! ### Reading a slot after a write -/

/-- One slot is written, and the list of active slots replaced. -/
abbrev GZVMState.edit (s : GZVMState) (slot : Nat) (cell : GzvmSlot) (ids : List Nat)
    (count : Nat) : GZVMState :=
  { s with slots := s.slots.set slot cell, sortedIds := ids, nrActiveSlots := count }

variable {id count slot : Nat} {s : GZVMState} {cell : GzvmSlot} {ids : List Nat}

theorem slotAt_of_not_lt (outside : s.slots.length ≤ id) :
    s.slotAt id = {} := by
  simp [GZVMState.slotAt, List.getElem?_eq_none outside]

theorem slotAt_set_same (inside : slot < s.slots.length) :
    (s.edit slot cell ids count).slotAt slot = cell := by
  simp [GZVMState.slotAt, inside]

theorem slotAt_set_other (different : id ≠ slot) :
    (s.edit slot cell ids count).slotAt id = s.slotAt id := by
  simp [GZVMState.slotAt, List.getElem?_set_ne different.symm]

/-! ### Free slots -/

abbrev GZVMState.grow (s : GZVMState) (extra : Nat) : GZVMState :=
  { s with
    slots := s.slots ++ freshSlots s.nrSlotsAllocated extra
    sortedIds := s.sortedIds ++ List.replicate extra 0
    nrSlotsAllocated := s.nrSlotsAllocated + extra }

theorem freshSlots_getElem? (old count i : Nat) :
    (freshSlots old count)[i]? = if i < count then some { id := old + i } else none := by
  by_cases inside : i < count
  · simp [freshSlots, inside]
  · simp [freshSlots, inside]

private theorem grown_slotAt (table : SlotTable s) (extra id : Nat) :
    (s.grow extra).slotAt id = if id < s.nrSlotsAllocated then s.slotAt id
      else if id < s.nrSlotsAllocated + extra then { id := id } else {} := by
  have lengthEq := table.slotsLength
  by_cases old : id < s.nrSlotsAllocated
  · simp [GZVMState.slotAt, old, List.getElem?_append_left (lengthEq ▸ old)]
  · grind [GZVMState.slotAt, freshSlots_getElem?, Nat.add_sub_cancel']

private theorem grown_table (table : SlotTable s) {extra : Nat}
    (fits : s.nrSlotsAllocated + extra ≤ gzvmMaxMemSlots) :
    SlotTable (s.grow extra) := by
  have activeEq : (s.grow extra).activeIds = s.activeIds := by
    simp only [GZVMState.activeIds]
    rw [List.take_append_of_le_length (by rw [table.sortedLength]; exact table.activeLe)]
  refine ⟨⟨?_, ?_, ?_, ?_, ?_⟩, ?_, fits, ?_, ?_, ?_⟩
  · simp [freshSlots, table.slotsLength]
  · simp [table.sortedLength]
  · exact Nat.le_add_right_of_le table.activeLe
  · rw [activeEq]
    exact fun id member => Nat.lt_add_right _ (table.inside id member)
  · rw [activeEq]
    refine table.sorted.imp_of_mem ?_
    intro low high lowMember highMember order
    rw [grown_slotAt table, grown_slotAt table, if_pos (table.inside _ lowMember),
      if_pos (table.inside _ highMember)]
    exact order
  · exact Nat.add_pos_left table.allocatedPos _
  · grind [SlotTable, grown_slotAt]
  · rw [activeEq]
    exact table.nodup
  · intro id
    rw [activeEq, table.active, grown_slotAt table]
    by_cases old : id < s.nrSlotsAllocated
    · simp [old, Nat.lt_add_right]
    · rw [if_neg old]
      by_cases new : id < s.nrSlotsAllocated + extra <;> simp [old, new]

/-- A free slot is an inactive one, found or made by growing the arrays; there is
none exactly when all `GZVM_MAX_MEM_SLOTS` slots are active. -/
theorem getFreeSlot_spec (table : SlotTable s) :
    (gzvmGetFreeSlot s = (s, none) ∧ s.nrActiveSlots = gzvmMaxMemSlots) ∨
      ∃ s' slot, gzvmGetFreeSlot s = (s', some slot) ∧ SlotTable s' ∧ SameQueues s s' ∧
        slot < s'.nrSlotsAllocated ∧ (s'.slotAt slot).size = 0 ∧ s'.activeIds = s.activeIds ∧
        (∀ id, (s'.slotAt id).contents = (s.slotAt id).contents) := by
  unfold gzvmGetFreeSlot
  cases search : findFreeSlot s.slots with
  | some slot =>
    right
    obtain ⟨inside, isFree, _⟩ := List.findIdx?_eq_some_iff_getElem.mp search
    refine ⟨s, slot, rfl, table, ⟨rfl, rfl, rfl⟩, table.slotsLength ▸ inside, ?_, rfl,
      fun _ => rfl⟩
    simpa [GZVMState.slotAt, inside] using isFree
  | none =>
    have allActive : ∀ id, id < s.nrSlotsAllocated → id ∈ s.activeIds := by
      intro id inside
      have bound : id < s.slots.length := by rw [table.slotsLength]; exact inside
      have busy := List.findIdx?_eq_none_iff.mp search s.slots[id] (List.getElem_mem bound)
      rw [table.active]
      refine ⟨inside, ?_⟩
      simpa [GZVMState.slotAt, bound] using busy
    have full : s.nrActiveSlots = s.nrSlotsAllocated := by
      apply Nat.le_antisymm table.activeLe
      rw [← table.activeIds_length, ← List.length_range (n := s.nrSlotsAllocated)]
      apply List.Nodup.length_le_of_subset List.nodup_range
      intro id member
      exact allActive id (List.mem_range.mp member)
    have allocatedPos := table.allocatedPos
    have allocatedLe := table.allocatedLe
    simp only
    by_cases noRoom : min (s.nrSlotsAllocated * 2) gzvmMaxMemSlots ≤ s.nrSlotsAllocated
    · left
      rw [if_pos noRoom]
      exact ⟨rfl, by omega⟩
    · right
      rw [if_neg noRoom]
      obtain ⟨extra, extraEq⟩ : ∃ extra,
          min (s.nrSlotsAllocated * 2) gzvmMaxMemSlots = s.nrSlotsAllocated + extra :=
        ⟨min (s.nrSlotsAllocated * 2) gzvmMaxMemSlots - s.nrSlotsAllocated, by omega⟩
      simp only [extraEq, Nat.add_sub_cancel_left]
      refine ⟨_, s.nrSlotsAllocated, rfl, grown_table table (by omega), ⟨rfl, rfl, rfl⟩, ?_, ?_,
        ?_, ?_⟩
      · show s.nrSlotsAllocated < s.nrSlotsAllocated + extra
        omega
      · rw [grown_slotAt table, if_neg (Nat.lt_irrefl _), if_pos (by omega)]
      · simp only [GZVMState.activeIds]
        rw [List.take_append_of_le_length (by rw [table.sortedLength]; exact table.activeLe)]
      · intro id
        rw [grown_slotAt table]
        by_cases old : id < s.nrSlotsAllocated
        · rw [if_pos old]
        · rw [if_neg old, slotAt_of_not_lt (by rw [table.slotsLength]; omega)]
          split <;> rfl

/-! ### Listing and unlisting a slot -/

theorem SlotTable.room (table : SlotTable s) {slot : Nat} (inside : slot < s.nrSlotsAllocated)
    (free : (s.slotAt slot).size = 0) : s.nrActiveSlots < s.nrSlotsAllocated := by
  have unlisted : slot ∉ s.activeIds := fun member => ((table.active slot).mp member).2 free
  have bound : (slot :: s.activeIds).length ≤ (List.range s.nrSlotsAllocated).length := by
    apply List.Nodup.length_le_of_subset (List.nodup_cons.mpr ⟨unlisted, table.nodup⟩)
    intro id member
    rcases List.mem_cons.mp member with rfl | listed
    · exact List.mem_range.mpr inside
    · exact List.mem_range.mpr (table.inside id listed)
  rw [List.length_cons, table.activeIds_length, List.length_range] at bound
  exact bound

/-- Writing a free slot and listing it: the table holds again and registers the
written contents. -/
theorem SlotTable.claim (table : SlotTable s) {slot : Nat} (inside : slot < s.nrSlotsAllocated)
    (free : (s.slotAt slot).size = 0) (cell : GzvmSlot) (cellId : cell.id = slot)
    (cellSize : cell.size ≠ 0) :
    ∃ s', gzvmUpdateSortedIds { s with slots := s.slots.set slot cell } slot true = .ok s' ∧
      SlotTable s' ∧ SameQueues s s' ∧ s'.slots = s.slots.set slot cell ∧
      s'.registered.Perm (cell.contents :: s.registered) := by
  have unlisted : slot ∉ s.activeIds := fun member => ((table.active slot).mp member).2 free
  have slotInside : slot < s.slots.length := by rw [table.slotsLength]; exact inside
  have other : ∀ id ∈ s.activeIds, id ≠ slot := fun id member same => unlisted (same ▸ member)
  have written : ∀ ids count, (s.edit slot cell ids count).slotAt slot = cell :=
    fun ids count => slotAt_set_same slotInside
  have kept : ∀ ids count id, id ≠ slot → (s.edit slot cell ids count).slotAt id = s.slotAt id :=
    fun ids count id different => slotAt_set_other different
  have indexed : Indexed { s with slots := s.slots.set slot cell } := by
    refine ⟨by simp [table.slotsLength], table.sortedLength, table.activeLe, table.inside, ?_⟩
    refine table.sorted.imp_of_mem ?_
    intro low high lowMember highMember order
    rw [kept s.sortedIds s.nrActiveSlots low (other low lowMember),
      kept s.sortedIds s.nrActiveSlots high (other high highMember)]
    exact order
  obtain ⟨before, after, ids, split, inserted, idsLength, idsTake, below, above⟩ :=
    indexed.insert_spec slot inside (table.room inside free)
  have split' : s.activeIds = before ++ after := split
  have beforeOther : ∀ id ∈ before, id ≠ slot := fun id member =>
    other id (by rw [split']; simp [member])
  have afterOther : ∀ id ∈ after, id ≠ slot := fun id member =>
    other id (by rw [split']; simp [member])
  -- The list of live ids of the new state, and the starts the search compared.
  have activeEq : (s.edit slot cell ids (s.nrActiveSlots + 1)).activeIds =
      before ++ slot :: after := idsTake
  have keptNew := kept ids (s.nrActiveSlots + 1)
  have sortedOld : (before ++ after).Pairwise fun low high =>
      (s.slotAt low).start ≤ (s.slotAt high).start := split' ▸ table.sorted
  refine ⟨_, inserted, ?_, ⟨rfl, rfl, rfl⟩, rfl, ?_⟩
  · refine ⟨⟨by simp [table.slotsLength], idsLength.trans table.sortedLength,
      table.room inside free, ?_, ?_⟩, table.allocatedPos, table.allocatedLe, ?_, ?_, ?_⟩
    · grind [SlotTable]
    · rw [activeEq, List.pairwise_append, List.pairwise_cons]
      obtain ⟨beforeSorted, afterSorted, cross⟩ := List.pairwise_append.mp sortedOld
      refine ⟨beforeSorted.imp_of_mem ?_, ⟨?_, afterSorted.imp_of_mem ?_⟩, ?_⟩
      · intro low high lowMember highMember order
        rwa [keptNew low (beforeOther low lowMember), keptNew high (beforeOther high highMember)]
      · grind
      · intro low high lowMember highMember order
        rwa [keptNew low (afterOther low lowMember), keptNew high (afterOther high highMember)]
      · grind
    · grind [SlotTable]
    · grind [SlotTable]
    · grind [SlotTable]
  · rw [GZVMState.registered, activeEq]
    refine (List.perm_middle.map _).trans ?_
    rw [List.map_cons, written, ← split', List.map_congr_left fun id member =>
      congrArg GzvmSlot.contents (keptNew id (other id member))]
    exact List.Perm.refl _

/-- Unlisting an active slot and clearing it: the table holds again and no longer
registers the slot's contents. -/
theorem SlotTable.release (table : SlotTable s) {slot : Nat} (listed : slot ∈ s.activeIds)
    (cell : GzvmSlot) (cellId : cell.id = slot) (cellSize : cell.size = 0) :
    ∃ ids, gzvmUpdateSortedIds s slot false =
        .ok { s with sortedIds := ids, nrActiveSlots := s.nrActiveSlots - 1 } ∧
      SlotTable (s.edit slot cell ids (s.nrActiveSlots - 1)) ∧
      s.registered.Perm ((s.slotAt slot).contents ::
        (s.edit slot cell ids (s.nrActiveSlots - 1)).registered) := by
  obtain ⟨ids, removed, idsLength, idsTake⟩ := table.toIndexed.remove_spec listed
  have inside := table.inside slot listed
  have slotInside : slot < s.slots.length := by rw [table.slotsLength]; exact inside
  have activeEq : (s.edit slot cell ids (s.nrActiveSlots - 1)).activeIds =
      s.activeIds.erase slot := idsTake
  have written : (s.edit slot cell ids (s.nrActiveSlots - 1)).slotAt slot = cell :=
    slotAt_set_same slotInside
  have kept : ∀ id, id ≠ slot →
      (s.edit slot cell ids (s.nrActiveSlots - 1)).slotAt id = s.slotAt id :=
    fun id different => slotAt_set_other different
  have eraseOther : ∀ id ∈ s.activeIds.erase slot, id ≠ slot := by
    rintro id member rfl
    exact (table.nodup.mem_erase_iff.mp member).1 rfl
  refine ⟨ids, removed, ?_, ?_⟩
  · refine ⟨⟨by simp [table.slotsLength], idsLength.trans table.sortedLength,
      Nat.le_trans (Nat.sub_le _ _) table.activeLe, ?_, ?_⟩, table.allocatedPos, table.allocatedLe,
      ?_, ?_, ?_⟩
    · rw [activeEq]
      exact fun id member => table.inside id (List.mem_of_mem_erase member)
    · rw [activeEq]
      refine (table.sorted.sublist List.erase_sublist).imp_of_mem ?_
      intro low high lowMember highMember order
      rwa [kept low (eraseOther low lowMember), kept high (eraseOther high highMember)]
    · grind [SlotTable]
    · rw [activeEq]
      exact table.nodup.erase slot
    · grind [SlotTable]
  · have restMap : (s.edit slot cell ids (s.nrActiveSlots - 1)).registered =
        (s.activeIds.erase slot).map fun id => (s.slotAt id).contents := by
      rw [GZVMState.registered, activeEq]
      exact List.map_congr_left fun id member => by rw [kept id (eraseOther id member)]
    rw [restMap]
    exact (List.perm_cons_erase listed).map fun id => (s.slotAt id).contents

/-! ### Slot operations on the host -/

structure HostOk (h : Host) : Prop where
  table : SlotTable h.state
  kernel : KernelAgrees h

section Operations

variable {h : Host} {ioctlOk : Nat → Bool}

theorem SameQueues.trans {a b c : GZVMState} (first : SameQueues a b) (second : SameQueues b c) :
    SameQueues a c :=
  ⟨second.ramBase.trans first.ramBase, second.add.trans first.add, second.del.trans first.del⟩

private theorem kernelAgrees_set {kernel : Nat → Option KernelSlot} {s : GZVMState} {slot : Nat}
    (inside : slot < s.slots.length)
    (agrees : ∀ id, kernel id =
      if (s.slotAt id).size = 0 then none else some (s.slotAt id).contents)
    (s' : GZVMState) (contents : KernelSlot) {cell : GzvmSlot}
    (slotsEq : s'.slots = s.slots.set slot cell)
    (same : contents.size = 0 ∧ cell.size = 0 ∨ contents = cell.contents) :
    ∀ id, kernelSet kernel slot contents id =
      if (s'.slotAt id).size = 0 then none else some (s'.slotAt id).contents := by
  intro id
  by_cases here : id = slot
  · subst here
    have written : s'.slotAt id = cell := by simp [GZVMState.slotAt, slotsEq, inside]
    rw [kernelSet, Function.update_self, written]
    rcases same with ⟨contentsSize, cellSize⟩ | rfl
    · rw [if_pos contentsSize, if_pos cellSize]
    · rfl
  · have kept : s'.slotAt id = s.slotAt id := by
      simp [GZVMState.slotAt, slotsEq, List.getElem?_set_ne (Ne.symm here)]
    rw [kernelSet, Function.update_of_ne here, agrees id, kept]

/-- Removing an active slot unregisters it when the ioctl succeeds; when the
ioctl fails nothing changes but the report log. -/
theorem removeMemSlot_spec (ioctlOk : Nat → Bool) (ok : HostOk h) {slot : Nat}
    (listed : slot ∈ h.state.activeIds) :
    ∃ h', gzvmRemoveMemSlotLocked ioctlOk h slot = .ok h' ∧ HostOk h' ∧
      SameQueues h.state h'.state ∧
      (ioctlOk h.ioctls = true →
        h.state.registered.Perm ((h.state.slotAt slot).contents :: h'.state.registered)) ∧
      (ioctlOk h.ioctls = false → h'.state = h.state) := by
  have table := ok.table
  have inside := table.inside slot listed
  have slotInside : slot < h.state.slots.length := by rw [table.slotsLength]; exact inside
  have readSlot := table.readAt_slots inside
  have idEq := table.idEq slot inside
  simp only [gzvmRemoveMemSlotLocked, readSlot, bind_ok, gzvmSetMemoryRegionLocked, idEq]
  cases outcome : ioctlOk h.ioctls with
  | false =>
    exact ⟨_, rfl, ⟨table, ok.kernel⟩, ⟨rfl, rfl, rfl⟩, by simp, fun _ => rfl⟩
  | true =>
    obtain ⟨ids, removed, tableAfter, perm⟩ :=
      table.release listed { id := slot } rfl rfl
    have agrees := kernelAgrees_set slotInside ok.kernel
      (h.state.edit slot { id := slot } ids (h.state.nrActiveSlots - 1)) ⟨0, 0, 0, 0⟩ rfl
      (Or.inl ⟨rfl, rfl⟩)
    obtain ⟨ranges, signalled⟩ := Indexed.signalUpdateRegions_ok (h :=
      { h with
        kernel := kernelSet h.kernel slot ⟨0, 0, 0, 0⟩
        ioctls := h.ioctls + 1
        state := h.state.edit slot { id := slot } ids (h.state.nrActiveSlots - 1) })
      tableAfter.toIndexed
    simp only [if_true, gzvmMemSlotDeactivateLocked, readSlot, bind_ok, idEq, removed,
      writeAt_of_lt slotInside]
    exact ⟨_, signalled, ⟨tableAfter, agrees⟩, ⟨rfl, rfl, rfl⟩, fun _ => perm, by simp⟩

/-- Adding a slot registers its contents, unless all slots are active or the
ioctl fails; then the registered contents stay as they were. -/
theorem addMemSlot_spec (ioctlOk : Nat → Bool) (ok : HostOk h) (hva gpa flags : Nat) {size : Nat}
    (nonempty : size ≠ 0) :
    ∃ h' added, gzvmAddMemSlot ioctlOk h hva gpa size flags = .ok (h', added) ∧ HostOk h' ∧
      SameQueues h.state h'.state ∧
      (added = true → h'.state.registered.Perm (⟨gpa, size, hva, flags⟩ :: h.state.registered)) ∧
      (added = false → h'.state.registered = h.state.registered) ∧
      (ioctlOk h.ioctls = true → h.state.nrActiveSlots < gzvmMaxMemSlots → added = true) := by
  have table := ok.table
  unfold gzvmAddMemSlot
  rcases getFreeSlot_spec table with ⟨noSlot, full⟩ |
    ⟨s, slot, found, tableS, queues, inside, free, activeEq, contentsEq⟩
  · rw [noSlot]
    exact ⟨_, false, rfl, ⟨table, ok.kernel⟩, ⟨rfl, rfl, rfl⟩, by simp, fun _ => rfl,
      fun _ room => absurd full (Nat.ne_of_lt room)⟩
  · -- Growing the arrays changes no contents, so the kernel still agrees.
    have agreesS : ∀ id, h.kernel id =
        if (s.slotAt id).size = 0 then none else some (s.slotAt id).contents := by
      intro id
      have sizeEq : (s.slotAt id).size = (h.state.slotAt id).size :=
        congrArg KernelSlot.size (contentsEq id)
      rw [ok.kernel id, contentsEq id, sizeEq]
    have registeredEq : s.registered = h.state.registered := by
      simp only [GZVMState.registered, activeEq, contentsEq]
    have slotInside : slot < s.slots.length := by rw [tableS.slotsLength]; exact inside
    have idEq := tableS.idEq slot inside
    simp only [found, tableS.readAt_slots inside, bind_ok, gzvmSetMemoryRegionLocked, idEq]
    cases outcome : ioctlOk h.ioctls with
    | false =>
      exact ⟨_, false, rfl, ⟨tableS, agreesS⟩, queues, by simp, fun _ => registeredEq, by simp⟩
    | true =>
      obtain ⟨s', inserted, tableAfter, queuesAfter, slotsEq, perm⟩ := tableS.claim inside free
        ⟨gpa, size, hva, slot, flags⟩ rfl nonempty
      obtain ⟨ranges, signalled⟩ := Indexed.signalUpdateRegions_ok (h :=
        { h with
          kernel := kernelSet h.kernel slot ⟨gpa, size, hva, flags⟩
          ioctls := h.ioctls + 1
          state := s' }) tableAfter.toIndexed
      have agrees := kernelAgrees_set slotInside agreesS s' ⟨gpa, size, hva, flags⟩ slotsEq
        (Or.inr rfl)
      simp only [if_true, writeAt_of_lt slotInside, bind_ok, inserted, signalled]
      refine ⟨_, true, rfl, ⟨tableAfter, agrees⟩, queues.trans queuesAfter, fun _ => ?_, by simp,
        fun _ _ => rfl⟩
      rw [← registeredEq]
      exact perm

end Operations

end QemuGzvm.Gzvm
