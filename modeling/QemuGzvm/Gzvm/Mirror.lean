import QemuGzvm.Gzvm.Tracking

/-!
Contract: the slots mirror the flat view, while regions keep their attributes.

Owns:
- `Eligible`, the filter of `gzvm_set_phys_mem_locked` in plain arithmetic;
- the lookup of a slot by address;
- `Mirrors`, what the table owes a view, and that it holds after every topology
  update of any sequence of views.

The filter is narrower than "RAM inside guest RAM, or ROM at zero": it also wants
ROM to be page aligned and nothing to reach the end of the address space.
-/

namespace QemuGzvm.Gzvm

open QemuGzvm.Library
open QemuGzvm.Memory

structure Eligible (m : Machine) (ramBase : Nat) (sec : MemoryRegionSection) : Prop where
  nonempty : 0 < sec.size
  below : sec.offsetWithinAddressSpace + sec.size < 2 ^ 64
  sizeAligned : m.pageSize ∣ sec.size
  startAligned : m.pageSize ∣ sec.offsetWithinAddressSpace
  placed :
    (memoryRegionIsRom (m.regions sec.mr) = true ∨ memoryRegionIsRomd (m.regions sec.mr) = true) ∧
        sec.offsetWithinAddressSpace = 0 ∨
      memoryRegionIsRam (m.regions sec.mr) = true ∧
        memoryRegionIsRom (m.regions sec.mr) = false ∧
        memoryRegionIsRomd (m.regions sec.mr) = false ∧
        ramBase ≤ sec.offsetWithinAddressSpace ∧
        sec.offsetWithinAddressSpace + sec.size ≤ (ramBase + m.ramSize) % 2 ^ 64

variable {m : Machine} {ramBase : Nat} {newView oldView view : FlatView} {fr : FlatRange} {h : Host}

theorem sectionAccepted_iff {sec : MemoryRegionSection} (fits : sec.size < 2 ^ 64) :
    sectionAccepted m ramBase sec = true ↔ Eligible m ramBase sec := by
  have below : sec.offsetWithinAddressSpace > 2 ^ 64 - 1 - sec.size ↔
      ¬sec.offsetWithinAddressSpace + sec.size < 2 ^ 64 := by omega
  constructor
  · intro accepted
    simp only [sectionAccepted, physMemAccepted, below] at accepted
    split at accepted
    · simp at accepted
    · split at accepted
      case isTrue => simp at accepted
      case isFalse kind shape =>
        simp only [Bool.or_eq_true, decide_eq_true_eq, bne_iff_ne, not_or, not_not] at shape
        obtain ⟨⟨⟨nonempty, low⟩, sizeAligned⟩, startAligned⟩ := shape
        refine ⟨Nat.pos_of_ne_zero nonempty, low, Nat.dvd_of_mod_eq_zero sizeAligned,
          Nat.dvd_of_mod_eq_zero startAligned, ?_⟩
        split at accepted
        case isTrue firmware => exact Or.inl ⟨by simpa using firmware, by simpa using accepted⟩
        case isFalse plain =>
          grind
  · rintro ⟨nonempty, low, sizeAligned, startAligned, placed⟩
    have nonzero : sec.size ≠ 0 := Nat.ne_of_gt nonempty
    have sizeMod := Nat.mod_eq_zero_of_dvd sizeAligned
    have startMod := Nat.mod_eq_zero_of_dvd startAligned
    simp only [sectionAccepted, physMemAccepted, below]
    rcases placed with ⟨firmware, atZero⟩ | ⟨isRam, notRom, notRomd, base, stop⟩
    · grind
    · simp [-Nat.reducePow, isRam, notRom, notRomd, nonzero, low, sizeMod, startMod, base, stop]

/-! ### Looking up a slot by address -/

/-- The active slot that contains an address, when active slots share no address
and end below the end of the address space. -/
theorem findSlotByAddr_spec {s : GZVMState} (table : SlotTable s)
    (apart : ∀ i ∈ s.activeIds, ∀ j ∈ s.activeIds, i ≠ j →
      (s.slotAt i).start + (s.slotAt i).size ≤ (s.slotAt j).start ∨
        (s.slotAt j).start + (s.slotAt j).size ≤ (s.slotAt i).start)
    (below : ∀ i ∈ s.activeIds, (s.slotAt i).start + (s.slotAt i).size < 2 ^ 64)
    {a : Nat} (inside : a < 2 ^ 64) :
    ∃ result, gzvmFindSlotByAddrLocked s a = .ok result ∧
      ∀ id, result = some id ↔
        id ∈ s.activeIds ∧ (s.slotAt id).start ≤ a ∧
          a < (s.slotAt id).start + (s.slotAt id).size := by
  have activeLength := table.activeIds_length
  unfold gzvmFindSlotByAddrLocked
  by_cases empty : s.nrActiveSlots = 0
  · rw [if_pos empty]
    rw [empty] at activeLength
    exact ⟨none, rfl, by simp [List.length_eq_zero_iff.mp activeLength]⟩
  · rw [if_neg empty]
    obtain ⟨before, after, split, found, low, high⟩ :=
      table.toIndexed.findFirstGe_spec ((a + 1) % 2 ^ 64)
    rw [found, bind_ok]
    -- a slot that contains the address starts below `a + 1`, which does not wrap then
    have inBefore : ∀ id ∈ s.activeIds, (s.slotAt id).start ≤ a →
        a < (s.slotAt id).start + (s.slotAt id).size → id ∈ before := by
      grind
    rcases List.eq_nil_or_concat before with rfl | ⟨init, last, rfl⟩
    · rw [if_neg (by simp)]
      refine ⟨none, rfl, fun id => ?_⟩
      simp only [reduceCtorEq, false_iff]
      rintro ⟨member, startLe, endGt⟩
      exact absurd (inBefore id member startLe endGt) (by simp)
    · have lastActive : last ∈ s.activeIds := by rw [split]; simp
      have lastStart : (s.slotAt last).start ≤ a := by
        grind
      have live : init.length < s.activeIds.length := by rw [split]; simp
      have readId : readAt s.sortedIds init.length = .ok last := by
        rw [readAt_activeIds live]
        simp [split]
      have offset : (a + 2 ^ 64 - (s.slotAt last).start) % 2 ^ 64 = a - (s.slotAt last).start := by
        omega
      -- another slot that contains the address would start no later than `last` and overlap it
      have onlyLast : ∀ id ∈ s.activeIds, (s.slotAt id).start ≤ a →
          a < (s.slotAt id).start + (s.slotAt id).size → id = last := by
        intro id member startLe endGt
        by_contra other
        have idBefore := inBefore id member startLe endGt
        rw [List.concat_eq_append, List.mem_append, List.mem_singleton] at idBefore
        have idInit := idBefore.resolve_right other
        have sorted := table.sorted
        rw [split, List.concat_eq_append, List.append_assoc, List.pairwise_append] at sorted
        have startOrder := sorted.2.2 id idInit last (by simp)
        have lastSize := ((table.active last).mp lastActive).2
        rcases apart id member last lastActive other with first | second <;> omega
      have position : (init.concat last).length - 1 = init.length := by simp
      rw [if_pos (by simp), position, readId, bind_ok,
        table.readAt_slots (table.inside last lastActive), bind_ok, offset]
      by_cases contains : a - (s.slotAt last).start < (s.slotAt last).size
      · rw [if_pos contains]
        refine ⟨some last, rfl, fun id => ⟨?_, ?_⟩⟩
        · intro same
          cases same
          exact ⟨lastActive, lastStart, by omega⟩
        · rintro ⟨member, startLe, endGt⟩
          rw [onlyLast id member startLe endGt]
      · rw [if_neg contains]
        refine ⟨none, rfl, fun id => ?_⟩
        simp only [reduceCtorEq, false_iff]
        rintro ⟨member, startLe, endGt⟩
        cases onlyLast id member startLe endGt
        omega

/-! ### Ranges that stay -/

theorem kept_not_removed (m : Machine) (ramBase : Nat) (oldOrdered : Ordered oldView)
    {frold frnew : FlatRange} (kept : DiffStep.keep frold frnew ∈ diffScript oldView newView)
    {slot : KernelSlot}
    (startEq : slot.start = (sectionFromFlatRange frold).offsetWithinAddressSpace) :
    ¬UpdateRemoves m ramBase oldView newView slot := by
  rintro ⟨gone, dropped, _, place⟩
  exact oldOrdered.dropped_ne_kept dropped kept (place.1.symm.trans startEq)

/-! ### The mirror -/

/-- What a view must offer: sections below `2^64` bytes, a `RAMBlock` under each
eligible one, and at most as many of them as there are slots. -/
structure Mirrorable (m : Machine) (ramBase : Nat) (view : FlatView) : Prop where
  ordered : Ordered view
  small : ∀ fr ∈ view, fr.addr.size < 2 ^ 64
  backed : ∀ fr ∈ view, Eligible m ramBase (sectionFromFlatRange fr) →
    (m.regions fr.mr).ramBlock.isSome = true
  room : (eligibleSections m ramBase view).length ≤ gzvmMaxMemSlots

theorem Mirrorable.fits (mirrorable : Mirrorable m ramBase view) (member : fr ∈ view) :
    (sectionFromFlatRange fr).size < 2 ^ 64 := by
  have sizeEq := mirrorable.ordered.section_size member
  have small := mirrorable.small fr member
  omega

theorem Mirrorable.safe (mirrorable : Mirrorable m ramBase view) (member : fr ∈ view) :
    ¬Asserts m ramBase (sectionFromFlatRange fr) := by
  rintro (large | ⟨accepted, unbacked⟩)
  · exact Nat.not_le_of_lt (mirrorable.fits member) large
  · have backed := mirrorable.backed fr member
      ((sectionAccepted_iff (mirrorable.fits member)).mp accepted)
    have unbacked' : (m.regions fr.mr).ramBlock = none := unbacked
    rw [unbacked'] at backed
    exact Bool.noConfusion backed

/-- One topology update: the table follows from the old view to the new one. -/
theorem mirror_step (m : Machine) (idle : Idle h ramBase)
    (tracks : Tracks h (eligibleContents m ramBase oldView))
    (oldOk : Mirrorable m ramBase oldView) (newOk : Mirrorable m ramBase newView) :
    ∃ h', (topologyTransaction m oldView newView).run everyIoctl h = .ok h' ∧ Idle h' ramBase ∧
      Tracks h' (eligibleContents m ramBase newView) := by
  have survive : ∀ slot ∈ eligibleContents m ramBase oldView,
      ¬UpdateRemoves m ramBase oldView newView slot →
        slot ∈ eligibleContents m ramBase newView := by
    intro slot inOld notRemoved
    obtain ⟨fr, member, accepted, rfl⟩ := mem_eligibleContents.mp inOld
    rcases mem_old_iff.mp member with dropped | ⟨frnew, kept⟩
    · exact absurd ⟨fr, dropped, accepted, rfl, rfl, rfl⟩ notRemoved
    · obtain ⟨_, newMember, equal⟩ :=
        (mem_diffScript_keep oldOk.ordered newOk.ordered).mp kept
      rw [flatrangeEqual_section equal] at accepted ⊢
      exact mem_eligibleContents.mpr ⟨frnew, newMember, accepted, rfl⟩
  obtain ⟨h', result, idle', tracks'⟩ := topology_tracks m idle tracks newOk.ordered
    (by
      intro fr member
      rcases List.mem_append.mp member with inOld | inNew
      · exact oldOk.safe inOld
      · exact newOk.safe inNew)
    survive newOk.room
  refine ⟨h', result, idle', tracks'.congr fun slot => ⟨?_, ?_⟩⟩
  · rintro (⟨inOld, notRemoved⟩ | ⟨fr, come, accepted, rfl⟩)
    · exact survive slot inOld notRemoved
    · exact mem_eligibleContents.mpr ⟨fr, mem_new_iff.mpr (Or.inl come), accepted, rfl⟩
  · intro inNew
    obtain ⟨fr, member, accepted, rfl⟩ := mem_eligibleContents.mp inNew
    rcases mem_new_iff.mp member with taken | ⟨frold, kept⟩
    · exact Or.inr ⟨fr, taken, accepted, rfl⟩
    · obtain ⟨oldMember, _, equal⟩ :=
        (mem_diffScript_keep oldOk.ordered newOk.ordered).mp kept
      rw [← flatrangeEqual_section equal] at accepted ⊢
      exact Or.inl ⟨mem_eligibleContents.mpr ⟨frold, oldMember, accepted, rfl⟩,
        kept_not_removed m ramBase oldOk.ordered kept rfl⟩

/-- The callbacks of `listener_add_address_space` when the listener is registered
on an address space that already has a view. -/
def listenerAddAddressSpace (m : Machine) (view : FlatView) : Transaction where
  machine := m
  calls := view.map fun fr => .regionAdd (sectionFromFlatRange fr)

theorem listenerAddAddressSpace_eq (m : Machine) (view : FlatView) :
    listenerAddAddressSpace m view = topologyTransaction m [] view := by
  have calls := topologyTransaction_calls m [] view
  rw [diffScript_nil_left] at calls
  have dropped : (view.map DiffStep.take).filterMap DiffStep.dropped = [] := by
    simp [List.filterMap_map, Function.comp_def, DiffStep.dropped]
  have taken : (view.map DiffStep.take).filterMap DiffStep.taken = view := by
    simp [List.filterMap_map, Function.comp_def, DiffStep.taken]
  rw [dropped, taken, List.map_nil, List.nil_append] at calls
  rw [listenerAddAddressSpace, ← calls]
  rfl

def followViews (m : Machine) : Host → FlatView → List FlatView → Checked Host
  | h, _, [] => .ok h
  | h, oldView, newView :: views =>
    ((topologyTransaction m oldView newView).run everyIoctl h).bind fun h =>
      followViews m h newView views

/-- Register the listener on `first`, then follow the views one by one. -/
def attachAndFollow (m : Machine) (ramBase : Nat) (first : FlatView) (views : List FlatView) :
    Checked Host :=
  ((listenerAddAddressSpace m first).run everyIoctl (gzvmCreateVm ramBase)).bind fun h =>
    followViews m h first views

structure Mirrors (m : Machine) (ramBase : Nat) (h : Host) (view : FlatView) : Prop where
  /-- One active slot for each eligible section, with its contents. -/
  slots : ∃ eligible : List MemoryRegionSection,
    (∀ sec, sec ∈ eligible ↔ sec ∈ sections view ∧ Eligible m ramBase sec) ∧ eligible.Nodup ∧
      h.state.registered.Perm (eligible.map (sectionContents m))
  disjoint : ∀ i ∈ h.state.activeIds, ∀ j ∈ h.state.activeIds, i ≠ j →
    (h.state.slotAt i).start + (h.state.slotAt i).size ≤ (h.state.slotAt j).start ∨
      (h.state.slotAt j).start + (h.state.slotAt j).size ≤ (h.state.slotAt i).start
  lookup : ∀ a, a < 2 ^ 64 → ∃ result, gzvmFindSlotByAddrLocked h.state a = .ok result ∧
    ∀ id, result = some id ↔ id ∈ h.state.activeIds ∧ (h.state.slotAt id).start ≤ a ∧
      a < (h.state.slotAt id).start + (h.state.slotAt id).size

theorem Tracks.range (tracks : Tracks h (eligibleContents m ramBase view)) {i : Nat}
    (active : i ∈ h.state.activeIds) :
    ∃ fr ∈ view, sectionAccepted m ramBase (sectionFromFlatRange fr) = true ∧
      (h.state.slotAt i).start = (sectionFromFlatRange fr).offsetWithinAddressSpace ∧
      (h.state.slotAt i).size = (sectionFromFlatRange fr).size := by
  obtain ⟨fr, member, accepted, same⟩ := mem_eligibleContents.mp
    ((tracks.members _).mp (mem_registered.mpr ⟨i, active, rfl⟩))
  exact ⟨fr, member, accepted, congrArg KernelSlot.start same, congrArg KernelSlot.size same⟩

theorem Tracks.disjoint (tracks : Tracks h (eligibleContents m ramBase view))
    (ordered : Ordered view) {i j : Nat} (iActive : i ∈ h.state.activeIds)
    (jActive : j ∈ h.state.activeIds) (different : i ≠ j) :
    (h.state.slotAt i).start + (h.state.slotAt i).size ≤ (h.state.slotAt j).start ∨
      (h.state.slotAt j).start + (h.state.slotAt j).size ≤ (h.state.slotAt i).start := by
  have startsDiffer : (h.state.slotAt i).start ≠ (h.state.slotAt j).start := by
    intro same
    have distinct := tracks.starts
    rw [GZVMState.registered, List.map_map] at distinct
    exact different (List.inj_on_of_nodup_map distinct iActive jActive same)
  obtain ⟨a, aMember, _, aStart, aSize⟩ := tracks.range iActive
  obtain ⟨b, bMember, _, bStart, bSize⟩ := tracks.range jActive
  rw [aStart, aSize, bStart, bSize]
  refine ordered.sections_apart aMember bMember ?_
  rintro rfl
  exact startsDiffer (aStart.trans bStart.symm)

theorem mirrors_of_tracks (viewOk : Mirrorable m ramBase view)
    (tracks : Tracks h (eligibleContents m ramBase view)) : Mirrors m ramBase h view := by
  have disjoint := fun i iActive j jActive different =>
    tracks.disjoint viewOk.ordered (i := i) (j := j) iActive jActive different
  refine ⟨⟨eligibleSections m ramBase view, ?_, ?_, ?_⟩, disjoint, ?_⟩
  · intro sec
    simp only [eligibleSections, List.mem_filter, List.mem_map]
    constructor
    · rintro ⟨⟨fr, member, rfl⟩, accepted⟩
      exact ⟨⟨fr, member, rfl⟩, (sectionAccepted_iff (viewOk.fits member)).mp accepted⟩
    · rintro ⟨⟨fr, member, rfl⟩, eligible⟩
      exact ⟨⟨fr, member, rfl⟩, (sectionAccepted_iff (viewOk.fits member)).mpr eligible⟩
  · exact viewOk.ordered.sections_nodup.filter _
  · have distinct : ((eligibleSections m ramBase view).map (sectionContents m)).Nodup := by
      refine List.Nodup.of_map KernelSlot.start ?_
      rw [List.map_map]
      refine (List.Nodup.sublist (List.filter_sublist.map _) ?_)
      rw [List.map_map]
      exact List.Nodup.map_on (fun a aMember b bMember same =>
        viewOk.ordered.eq_of_section_start aMember bMember same) viewOk.ordered.nodup
    exact (List.perm_ext_iff_of_nodup (List.Nodup.of_map _ tracks.starts) distinct).mpr
      tracks.members
  · intro a inside
    refine findSlotByAddr_spec tracks.ok.table disjoint ?_ inside
    intro i iActive
    obtain ⟨fr, member, accepted, startEq, sizeEq⟩ := tracks.range iActive
    have eligible := (sectionAccepted_iff (viewOk.fits member)).mp accepted
    rw [startEq, sizeEq]
    exact eligible.below

theorem followViews_tracks (m : Machine) (view : FlatView) (views : List FlatView)
    (idle : Idle h ramBase) (tracks : Tracks h (eligibleContents m ramBase view))
    (allOk : ∀ v ∈ view :: views, Mirrorable m ramBase v) :
    ∃ h', followViews m h view views = .ok h' ∧
      Tracks h' (eligibleContents m ramBase ((view :: views).getLast (by simp))) := by
  induction views generalizing h view with
  | nil => exact ⟨h, rfl, tracks⟩
  | cons next views ih =>
    obtain ⟨h', result, idle', tracks'⟩ := mirror_step m idle tracks
      (allOk view (by simp)) (allOk next (by simp))
    obtain ⟨last, lastResult, lastTracks⟩ := ih next idle' tracks'
      fun v member => allOk v (List.mem_cons_of_mem _ member)
    rw [followViews, result, bind_ok]
    exact ⟨last, lastResult, by simpa using lastTracks⟩

theorem tracks_createVm (m : Machine) (ramBase : Nat) :
    Tracks (gzvmCreateVm ramBase) (eligibleContents m ramBase []) := by
  have empty : (gzvmCreateVm ramBase).state.registered = [] := by
    simp [gzvmCreateVm, GZVMState.registered, GZVMState.activeIds]
  refine ⟨hostOk_createVm ramBase, ?_, ?_⟩
  · intro slot
    rw [empty, mem_eligibleContents]
    simp
  · rw [empty]
    simp

/-- Over any sequence of views, the slots mirror the last one. -/
theorem slots_mirror_views (m : Machine) (ramBase : Nat) (first : FlatView)
    (views : List FlatView) (allOk : ∀ v ∈ first :: views, Mirrorable m ramBase v) :
    ∃ h, attachAndFollow m ramBase first views = .ok h ∧
      Mirrors m ramBase h ((first :: views).getLast (by simp)) := by
  have emptyOk : Mirrorable m ramBase [] :=
    ⟨ordered_nil, by simp, by simp, by simp [eligibleSections]⟩
  obtain ⟨h, result, idle, tracks⟩ := mirror_step m ⟨rfl, rfl, rfl⟩ (tracks_createVm m ramBase)
    emptyOk (allOk first (by simp))
  obtain ⟨last, lastResult, lastTracks⟩ := followViews_tracks m first views idle tracks allOk
  refine ⟨last, ?_, mirrors_of_tracks (allOk _ (List.getLast_mem _)) lastTracks⟩
  rw [attachAndFollow, listenerAddAddressSpace_eq, result, bind_ok, lastResult]

/-- A gigabyte of RAM at one gigabyte, mapped after the listener was registered. -/
theorem slots_mirror_views_ram :
    let m : Machine :=
      { regions := fun _ => { ram := true, ramBlock := some 0x700000000000 }
        pageSize := 4096
        ramSize := 2 ^ 30 }
    let ram : FlatRange := ⟨1, 0, ⟨2 ^ 30, 2 ^ 30⟩, 0, true, false, false, false⟩
    ∃ h, attachAndFollow m (2 ^ 30) [] [[ram]] = .ok h ∧ Mirrors m (2 ^ 30) h [ram] := by
  intro m ram
  refine slots_mirror_views m (2 ^ 30) [] [[ram]] ?_
  intro v member
  simp only [List.mem_cons, List.not_mem_nil, or_false] at member
  rcases member with rfl | rfl
  · exact ⟨ordered_nil, by simp, by simp, by simp [eligibleSections]⟩
  · refine ⟨?_, by simp [ram], fun _ _ _ => rfl, by decide⟩
    constructor <;> simp [ram, addrrangeEnd]

/-- The filter is narrower than it looks. RAM that fills guest RAM up to the end
of the address space gets no slot, nor does ROM at address zero whose size is not
a multiple of the page size; a section of `2^64` bytes fails an assertion. -/
theorem filter_rejects_boundary_sections :
    let ramMachine : Machine :=
      { regions := fun _ => { ram := true, ramBlock := some 0x700000000000 }
        pageSize := 4096
        ramSize := 2 ^ 20 }
    let topRam : FlatRange := ⟨1, 0, ⟨2 ^ 64 - 2 ^ 20, 2 ^ 20⟩, 0, true, false, false, false⟩
    let romMachine : Machine :=
      { regions := fun _ => { ram := true, readonly := true, ramBlock := some 0x700000000000 }
        pageSize := 4096
        ramSize := 2 ^ 30 }
    let oddRom : FlatRange := ⟨1, 0, ⟨0, 6000⟩, 0, true, true, false, false⟩
    let everything : FlatRange := ⟨1, 0, ⟨0, 2 ^ 64⟩, 0, true, false, false, false⟩
    ((attachAndFollow ramMachine (2 ^ 64 - 2 ^ 20) [] [[topRam]]).map
        fun h => h.state.registered) = .ok [] ∧
      ((attachAndFollow romMachine (2 ^ 30) [] [[oddRom]]).map
        fun h => h.state.registered) = .ok [] ∧
      ((attachAndFollow ramMachine 0 [] [[everything]]).map
        fun h => h.state.registered) = .error .assertion := by
  decide +kernel

end QemuGzvm.Gzvm
