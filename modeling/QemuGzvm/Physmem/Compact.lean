import QemuGzvm.Physmem.SetPages

/-!
Contract: what `phys_page_compact` does to the tree.

Owns:
- `Compacted`: every page that had a section keeps it, and a page that had none
  reads as unassigned or as some page of the same block;
- the loop over the entries of a node and the collapse of a node with one entry;
- the specification of `phys_page_compact`.

The skipped digits are not compared with those of the page, so that a page without
a section may now read as another page's section. The caller finds out from the
section's own bounds.
-/

namespace QemuGzvm.Physmem

open QemuGzvm.Library

structure Compacted (height block : Nat) (nodes : List Node) (label : Nat → Label)
    (slot : Slot Nat) (nodes' : List Node) (slot' : Slot Nat) : Prop where
  length : nodes'.length = nodes.length
  change : Extends (heapOf nodes) label (heapOf nodes') label height block
  labelled : Labelled (heapOf nodes') label
  fits : Fits pL2Size nodes.length label height block slot'
  valid : slot ≠ .empty → slot' ≠ .empty
  keeps : ∀ page found, page / pL2Size ^ height = block → found ≠ physSectionUnassigned →
    Walk (heapOf nodes) physSectionUnassigned page height slot found →
    Walk (heapOf nodes') physSectionUnassigned page height slot' found
  origin : ∀ page found, Walk (heapOf nodes') physSectionUnassigned page height slot' found →
    found = physSectionUnassigned ∨ ∃ other, other / pL2Size ^ height = block ∧
      Walk (heapOf nodes) physSectionUnassigned other height slot found

/-- `compact` compacts below an entry of height `height` that is not a leaf. -/
def Compacts (height : Nat)
    (compact : List Node → PhysPageEntry → Checked (List Node × PhysPageEntry)) : Prop :=
  ∀ (nodes : List Node) (lp : PhysPageEntry) (label : Nat → Label) (block : Nat),
    Labelled (heapOf nodes) label → nodes.length ≤ physMapNodeNil →
    (∀ node < nodes.length, Inside pL2Size height block (label node) →
      ∀ slot, PlainSlot (label node).level ((heapOf nodes).cells node slot)) →
    Fits pL2Size nodes.length label height block lp.slot → PlainSlot height lp.slot →
    lp.skip ≠ 0 →
    ∃ nodes' lp', compact nodes lp = .ok (nodes', lp') ∧
      Compacted height block nodes label lp.slot nodes' lp'.slot

/-! ### The loop over the entries of a node -/

/-- The heap while the entries of `node` from `next` on are still to be visited. -/
structure ScanHeap (level block node next : Nat) (nodes : List Node) (label : Nat → Label)
    (scanned : List Node) : Prop where
  length : scanned.length = nodes.length
  change : Extends (heapOf nodes) label (heapOf scanned) label (level + 1) block
  labelled : Labelled (heapOf scanned) label
  untouched : ∀ slot : Fin pL2Size, next ≤ slot.val →
    (heapOf scanned).cells node slot = (heapOf nodes).cells node slot ∧
      SameInside nodes scanned label level (block * pL2Size + slot)
  valid : ∀ slot, (heapOf nodes).cells node slot ≠ .empty → (heapOf scanned).cells node slot ≠ .empty
  keeps : ∀ (slot : Fin pL2Size) page found, page / pL2Size ^ level = block * pL2Size + slot →
    found ≠ physSectionUnassigned →
    Walk (heapOf nodes) physSectionUnassigned page level ((heapOf nodes).cells node slot) found →
    Walk (heapOf scanned) physSectionUnassigned page level
      ((heapOf scanned).cells node slot) found
  origin : ∀ (slot : Fin pL2Size) page found,
    Walk (heapOf scanned) physSectionUnassigned page level
      ((heapOf scanned).cells node slot) found →
    found = physSectionUnassigned ∨ ∃ other, other / pL2Size ^ level = block * pL2Size + slot ∧
      Walk (heapOf nodes) physSectionUnassigned other level
        ((heapOf nodes).cells node slot) found

/-- What `valid` and `valid_ptr` say of the entries before `next`. -/
def ScanCount (node next : Nat) (nodes : List Node) (validPtr valid : Nat) : Prop :=
  valid = 0 ∧ (∀ slot : Fin pL2Size, slot.val < next → (heapOf nodes).cells node slot = .empty) ∨
  valid = 1 ∧ (∃ only : Fin pL2Size, validPtr = only.val ∧ only.val < next ∧
    (heapOf nodes).cells node only ≠ .empty ∧
    ∀ slot : Fin pL2Size, slot.val < next → slot ≠ only → (heapOf nodes).cells node slot = .empty) ∨
  2 ≤ valid

variable {next node block level : Nat} {nodes : List Node} {slot : Fin pL2Size}
  {label : Nat → Label} {valid validPtr : Nat} {scanned : List Node}

theorem ScanCount.skip (count : ScanCount node next nodes validPtr valid) (isNext : slot.val = next)
    (empty : (heapOf nodes).cells node slot = .empty) :
    ScanCount node (next + 1) nodes validPtr valid := by
  have here : ∀ other : Fin pL2Size, other.val < next + 1 → other.val < next ∨ other = slot := by
    grind
  rcases count with ⟨none, all⟩ | ⟨one, only, isPtr, bound, nonempty, rest⟩ | many
  · refine Or.inl ⟨none, fun other before => ?_⟩
    rcases here other before with before | rfl
    · exact all other before
    · exact empty
  · refine Or.inr (Or.inl ⟨one, only, isPtr, Nat.lt_succ_of_lt bound, nonempty,
      fun other before different => ?_⟩)
    rcases here other before with before | rfl
    · exact rest other before different
    · exact empty
  · exact Or.inr (Or.inr many)

theorem ScanCount.take (count : ScanCount node next nodes validPtr valid) (isNext : slot.val = next)
    (nonempty : (heapOf nodes).cells node slot ≠ .empty) :
    ScanCount node (next + 1) nodes slot (valid + 1) := by
  rcases count with ⟨none, all⟩ | ⟨one, _⟩ | many
  · refine Or.inr (Or.inl ⟨by omega, slot, rfl, by omega, nonempty, fun other before different => ?_⟩)
    rcases Nat.lt_succ_iff_lt_or_eq.mp before with before | same
    · exact all other before
    · exact (different (Fin.ext (same.trans isNext.symm))).elim
  · exact Or.inr (Or.inr (by omega))
  · exact Or.inr (Or.inr (by omega))

theorem ScanHeap.start (labelled : Labelled (heapOf nodes) label) (level block node : Nat) :
    ScanHeap level block node 0 nodes label nodes :=
  ⟨rfl, Extends.refl .., labelled, fun _ _ => ⟨rfl, fun _ _ _ => rfl⟩, fun _ nonempty => nonempty,
    fun _ _ _ _ _ walk => walk, fun _ _ _ walk => Or.inr (walk.relocate _)⟩

theorem ScanHeap.fits (scan : ScanHeap level block node next nodes label scanned)
    (present : node < nodes.length) (here : label node = ⟨level, block⟩) (slot : Fin pL2Size) :
    Fits pL2Size scanned.length label level (block * pL2Size + slot)
      ((heapOf scanned).cells node slot) := by
  have fits := scan.labelled node (Nat.lt_of_lt_of_eq present scan.length.symm) slot
  rwa [here] at fits

theorem ScanHeap.pass (scan : ScanHeap level block node next nodes label scanned) :
    ScanHeap level block node (next + 1) nodes label scanned :=
  { scan with untouched := fun slot after => scan.untouched slot (Nat.le_of_succ_le after) }

theorem ScanHeap.step {middle : List Node} {new : PhysPageEntry}
    (present : node < nodes.length) (here : label node = ⟨level, block⟩)
    (scan : ScanHeap level block node slot nodes label scanned)
    (entry : Compacted level (block * pL2Size + slot) scanned label
      ((heapOf scanned).cells node slot) middle new.slot) :
    ∃ nodes', writeEntry middle node slot new = .ok nodes' ∧
      ScanHeap level block node (slot + 1) nodes label nodes' := by
  have middleLength : middle.length = nodes.length := entry.length.trans scan.length
  obtain ⟨nodes', ran, wrote⟩ :=
    writeEntry_spec (Nat.lt_of_lt_of_eq present middleLength.symm) slot new
  have length : nodes'.length = nodes.length := wrote.length.trans middleLength
  have newFits : Fits pL2Size middle.length label level (block * pL2Size + slot) new.slot := by
    rw [entry.length]
    exact entry.fits
  have labelledAfter : Labelled (heapOf nodes') label :=
    wrote.labelled entry.labelled here newFits
  have writeIff : ∀ page found,
      Walk (heapOf middle) physSectionUnassigned page level new.slot found ↔
        Walk (heapOf nodes') physSectionUnassigned page level new.slot found := fun page found =>
    (wrote.sameInside here _).walk_iff wrote.length entry.labelled labelledAfter newFits
  -- what is below another slot is as it was before this visit
  have besides : ∀ other : Fin pL2Size, other ≠ slot →
      SameInside scanned nodes' label level (block * pL2Size + other) := by
    intro other different node' present' inside
    rw [wrote.sameInside here _ node' (Nat.lt_of_lt_of_eq present' entry.length.symm) inside]
    refine entry.change.outside node' present' fun inside' => different (Fin.ext ?_)
    have := inside.unique inside'
    omega
  have cells : ∀ other : Fin pL2Size, other ≠ slot →
      (heapOf nodes').cells node other = (heapOf scanned).cells node other := by
    intro other different
    rw [wrote.beside other different]
    refine congrFun (entry.change.outside node (Nat.lt_of_lt_of_eq present scan.length.symm)
      fun inside => ?_) other
    have lower := inside.1
    rw [here] at lower
    exact Nat.lt_irrefl _ lower
  refine ⟨nodes', ran, length,
    scan.change.trans ((entry.change.widen fun _ => Inside.up).trans (wrote.change here)),
    labelledAfter, ?_, ?_, ?_, ?_⟩
  · intro other after
    have different : other ≠ slot := by
      rintro rfl
      exact Nat.lt_irrefl _ after
    obtain ⟨cell, same⟩ := scan.untouched other (Nat.le_of_succ_le after)
    refine ⟨(cells other different).trans cell, fun node' present' inside => ?_⟩
    rw [besides other different node' (Nat.lt_of_lt_of_eq present' scan.length.symm) inside,
      same node' present' inside]
  · intro other nonempty
    by_cases same : other = slot
    · rw [same, wrote.here]
      exact entry.valid (same ▸ scan.valid other nonempty)
    · rw [cells other same]
      exact scan.valid other nonempty
  · intro other page found within assigned walk
    have walk := scan.keeps other page found within assigned walk
    by_cases same : other = slot
    · rw [same] at within walk ⊢
      rw [wrote.here]
      exact (writeIff page found).mp (entry.keeps page found within assigned walk)
    · rw [cells other same]
      exact ((besides other same).walk_iff (wrote.length.trans entry.length) scan.labelled
        labelledAfter (scan.fits present here other)).mp walk
  · intro other page found walk
    by_cases same : other = slot
    · rw [same, wrote.here] at walk
      rcases entry.origin page found ((writeIff page found).mpr walk) with unassigned | ⟨_, _, walk⟩
      · exact Or.inl unassigned
      · rw [same]
        exact scan.origin slot _ found walk
    · rw [cells other same] at walk
      exact scan.origin other page found (((besides other same).walk_iff
        (wrote.length.trans entry.length) scan.labelled labelledAfter
        (scan.fits present here other)).mpr walk)

theorem compactEntries_spec
    {descend : List Node → PhysPageEntry → Checked (List Node × PhysPageEntry)}
    (descends : 0 < level → Compacts level descend)
    (small : nodes.length ≤ physMapNodeNil) (present : node < nodes.length)
    (here : label node = ⟨level, block⟩)
    (plain : ∀ other < nodes.length, Inside pL2Size (level + 1) block (label other) →
      ∀ slot, PlainSlot (label other).level ((heapOf nodes).cells other slot))
    (remaining : Nat) (few : remaining ≤ pL2Size) (scan : CompactScan)
    (heap : ScanHeap level block node (pL2Size - remaining) nodes label scan.nodes)
    (count : ScanCount node (pL2Size - remaining) nodes scan.validPtr scan.valid) :
    ∃ scan', compactEntries descend node remaining scan = .ok scan' ∧
      ScanHeap level block node pL2Size nodes label scan'.nodes ∧
      ScanCount node pL2Size nodes scan'.validPtr scan'.valid := by
  induction remaining generalizing scan with
  | zero => exact ⟨scan, rfl, heap, count⟩
  | succ remaining ih =>
    obtain ⟨slot, isSlot⟩ : ∃ slot : Fin pL2Size,
        slot = Fin.ofNat pL2Size (pL2Size - (remaining + 1)) := ⟨_, rfl⟩
    have slotVal : slot.val = pL2Size - (remaining + 1) := by
      rw [isSlot]
      exact Nat.mod_eq_of_lt (by omega)
    have next : slot.val + 1 = pL2Size - remaining := by omega
    rw [← slotVal] at heap count
    obtain ⟨entries, stored⟩ := exists_entries (Nat.lt_of_lt_of_eq present heap.length.symm)
    obtain ⟨cell, same⟩ := heap.untouched slot (Nat.le_refl _)
    have scanned : (heapOf scan.nodes).cells node slot = (entries slot).slot :=
      heapOf_cells stored slot
    have original : (heapOf nodes).cells node slot = (entries slot).slot := cell.symm.trans scanned
    have fits := heap.fits present here slot
    rw [scanned] at fits
    have plainHere : PlainSlot level (entries slot).slot := by
      have plainHere := plain node present (here ▸ Inside.self level block) slot
      rwa [here, original] at plainHere
    have continued := ih (Nat.le_of_succ_le few)
    rw [← next] at continued
    rw [compactEntries, readAt_of_getElem? stored, bind_ok, ← isSlot]
    cases kind : (entries slot).slot with
    | empty =>
      rw [if_pos (slot_eq_empty.mp kind).2]
      exact continued scan heap.pass (count.skip rfl (original.trans kind))
    | value found =>
      obtain ⟨isLeaf, isFound⟩ := slot_eq_value.mp kind
      have notNil : (entries slot).ptr ≠ physMapNodeNil := by
        intro isNil
        exact plainHere.notNil (slot_eq_value.mpr ⟨isLeaf, isNil⟩)
      rw [if_neg notNil, if_pos isLeaf]
      refine continued _ heap.pass (count.take rfl ?_)
      rw [original, kind]
      nofun
    | child skip below =>
      obtain ⟨isSkip, isPtr, notLeaf, _⟩ := slot_eq_child.mp kind
      rw [kind] at fits
      have notNil : (entries slot).ptr ≠ physMapNodeNil := by
        have := fits.2.1
        have := heap.length
        omega
      have above : 0 < level := by
        have := fits.2.2.1
        omega
      rw [← kind] at fits
      obtain ⟨middle, new, ran, compacted⟩ := descends above scan.nodes (entries slot) label
        (block * pL2Size + slot) heap.labelled (by rw [heap.length]; exact small)
        (fun other present' inside slot' => by
          rw [heap.length] at present'
          rw [same other present' inside]
          exact plain other present' inside.up slot')
        fits plainHere (by rw [isSkip]; exact notLeaf)
      rw [← scanned] at compacted
      obtain ⟨nodes', wrote, stepped⟩ := heap.step present here compacted
      rw [if_neg notNil, if_neg (by rw [isSkip]; exact notLeaf), ran, bind_ok]
      dsimp only
      rw [wrote, bind_ok]
      refine continued ⟨nodes', slot, scan.valid + 1⟩ stepped (count.take rfl ?_)
      rw [original, kind]
      nofun

/-! ### The collapse and the whole call -/

theorem Compacted.refl {height : Nat} {slot : Slot Nat} (labelled : Labelled (heapOf nodes) label)
    (fits : Fits pL2Size nodes.length label height block slot) :
    Compacted height block nodes label slot nodes slot :=
  ⟨rfl, Extends.refl .., labelled, fits, id, fun _ _ _ _ walk => walk,
    fun _ _ walk => Or.inr (walk.relocate block)⟩

section

variable (heap : ScanHeap level block node pL2Size nodes label scanned)
include heap

/-- What is found below an entry of the node was found below the node. -/
theorem ScanHeap.origin_below 
    (present : node < nodes.length) {slot : Fin pL2Size} {page found : Nat}
    (walk : Walk (heapOf scanned) physSectionUnassigned page level
      ((heapOf scanned).cells node slot) found) :
    found = physSectionUnassigned ∨ ∃ other, other / pL2Size ^ (level + 1) = block ∧
      Walk (heapOf nodes) physSectionUnassigned other (level + 1) (.child 1 node) found := by
  rcases heap.origin slot page found walk with unassigned | ⟨other, within, walk⟩
  · exact Or.inl unassigned
  · obtain ⟨inBlock, isDigit⟩ := block_of_split pL2Size within
    refine Or.inr ⟨other, inBlock, walk_child_one.mpr ⟨present, ?_⟩⟩
    rw [isDigit]
    exact walk

/-- The entry keeps its node, whose entries have been compacted. -/
theorem ScanHeap.keep_node (present : node < nodes.length)
    (fits : Fits pL2Size nodes.length label (level + 1) block (.child 1 node : Slot Nat)) :
    Compacted (level + 1) block nodes label (.child 1 node) scanned (.child 1 node) := by
  refine ⟨heap.length, heap.change, heap.labelled, fits, id, ?_, ?_⟩
  · intro page found within assigned walk
    have split := block_split pL2Size level page
    rw [within] at split
    exact walk_child_one.mpr ⟨Nat.lt_of_lt_of_eq present heap.length.symm,
      heap.keeps _ page found split assigned (walk_child_one.mp walk).2⟩
  · intro page found walk
    exact heap.origin_below present (walk_child_one.mp walk).2

/-- The only entry of the node takes the place of the entry that leads to it. A page
whose digit is another one had no section. -/
theorem ScanHeap.lift_only 
    (present : node < nodes.length) (here : label node = ⟨level, block⟩) (only : Fin pL2Size)
    (nonempty : (heapOf nodes).cells node only ≠ .empty)
    (others : ∀ slot, slot ≠ only → (heapOf nodes).cells node slot = .empty) :
    Compacted (level + 1) block nodes label (.child 1 node) scanned
      ((heapOf scanned).cells node only).lift := by
  have fits := heap.fits present here only
  refine ⟨heap.length, heap.change, heap.labelled, ?_, fun _ => ?_, ?_, ?_⟩
  · rw [← heap.length]
    exact fits.lift
  · have kept := heap.valid only nonempty
    cases kind : (heapOf scanned).cells node only with
    | empty => exact (kept kind).elim
    | value => nofun
    | child => nofun
  · intro page found within assigned walk
    have walk := (walk_child_one.mp walk).2
    have isOnly : digit pL2Size level page = only := by
      by_contra different
      rw [others _ different] at walk
      cases walk
      exact assigned rfl
    have split := block_split pL2Size level page
    rw [within] at split
    rw [isOnly] at split walk
    exact (walk_lift fits).mpr (heap.keeps only page found split assigned walk)
  · intro page found walk
    exact heap.origin_below present ((walk_lift fits).mp walk)

end

theorem slot_collapsed {only : PhysPageEntry} {size : Nat}
    (fits : Fits pL2Size size label level block only.slot) (nonempty : only.slot ≠ .empty)
    (shallow : level + 1 < 2 ^ 6) :
    (PhysPageEntry.mk (if only.skip = 0 then 0 else (1 + only.skip) % 2 ^ 6) only.ptr).slot =
      only.slot.lift := by
  cases kind : only.slot with
  | empty => exact (nonempty kind).elim
  | value found =>
    obtain ⟨isLeaf, isFound⟩ := slot_eq_value.mp kind
    exact slot_eq_value.mpr ⟨if_pos isLeaf, isFound⟩
  | child skip node =>
    obtain ⟨isSkip, isPtr, notLeaf, _⟩ := slot_eq_child.mp kind
    rw [kind] at fits
    have bound : 1 + skip < 2 ^ 6 := by
      have := fits.2.2.1
      omega
    refine slot_eq_child.mpr ⟨?_, isPtr, by omega, by omega⟩
    rw [isSkip, if_neg notLeaf, Nat.mod_eq_of_lt bound]

theorem collapse_spec (levels : Nat) {lp : PhysPageEntry} {scan : CompactScan}
    (isOne : lp.slot = .child 1 lp.ptr) (shallow : level + 1 < 2 ^ 6)
    (present : lp.ptr < nodes.length) (here : label lp.ptr = ⟨level, block⟩)
    (fits : Fits pL2Size nodes.length label (level + 1) block lp.slot)
    (heap : ScanHeap level block lp.ptr pL2Size nodes label scan.nodes)
    (count : ScanCount lp.ptr pL2Size nodes scan.validPtr scan.valid) :
    ∃ lp', collapse levels lp scan lp.ptr = .ok lp' ∧
      Compacted (level + 1) block nodes label lp.slot scan.nodes lp'.slot := by
  rw [isOne] at fits ⊢
  have keep : Compacted (level + 1) block nodes label (.child 1 lp.ptr) scan.nodes lp.slot := by
    rw [isOne]
    exact heap.keep_node present fits
  unfold collapse
  split
  · exact ⟨lp, rfl, keep⟩
  · rcases count with ⟨none, _⟩ | ⟨one, only, isPtr, _, nonempty, others⟩ | many
    · omega
    · have bounded : scan.validPtr < pL2Size := isPtr ▸ only.isLt
      rw [dif_pos bounded]
      obtain ⟨entries, stored⟩ := exists_entries (Nat.lt_of_lt_of_eq present heap.length.symm)
      have isOnly : (⟨scan.validPtr, bounded⟩ : Fin pL2Size) = only := Fin.ext isPtr
      rw [readAt_of_getElem? stored, bind_ok, isOnly]
      dsimp only
      split
      · exact ⟨lp, rfl, keep⟩
      · refine ⟨_, rfl, ?_⟩
        have cell := heapOf_cells stored only
        have entryFits := heap.fits present here only
        rw [cell] at entryFits
        have valid := heap.valid only nonempty
        rw [cell] at valid
        rw [(slot_eq_child.mp isOne).1, slot_collapsed entryFits valid shallow, ← cell]
        exact heap.lift_only present here only nonempty fun slot different =>
          others slot slot.isLt different
    · omega

theorem physPageCompact_spec (levels depth height : Nat) (deep : height ≤ depth)
    (shallow : height < 2 ^ 6) : Compacts height (physPageCompact levels depth) := by
  induction depth generalizing height with
  | zero =>
    intro nodes lp label block _ _ _ fits _ notLeaf
    have bottom : height = 0 := Nat.le_zero.mp deep
    rw [bottom] at fits
    cases kind : lp.slot with
    | empty =>
      rw [kind] at fits
      exact (Nat.lt_irrefl 0 fits).elim
    | value => exact (notLeaf (slot_eq_value.mp kind).1).elim
    | child skip node =>
      rw [kind] at fits
      have := fits.1
      have := fits.2.2.1
      omega
  | succ depth ih =>
    intro nodes lp label block labelled small plain fits plainLp notLeaf
    rw [physPageCompact]
    cases kind : lp.slot with
    | empty =>
      rw [if_pos (slot_eq_empty.mp kind).2]
      refine ⟨nodes, lp, rfl, ?_⟩
      rw [kind] at fits ⊢
      exact Compacted.refl labelled fits
    | value => exact (notLeaf (slot_eq_value.mp kind).1).elim
    | child skip node =>
      obtain ⟨isSkip, isPtr, _, _⟩ := slot_eq_child.mp kind
      have one : skip = 1 := plainLp.one skip node kind
      rw [one] at isSkip kind
      rw [← isPtr] at kind
      have childFits := fits
      rw [kind] at childFits
      have present : lp.ptr < nodes.length := childFits.2.1
      obtain ⟨level, isHeight⟩ : ∃ level, height = level + 1 := by
        have := childFits.2.2.1
        exact ⟨height - 1, by omega⟩
      subst isHeight
      have here : label lp.ptr = ⟨level, block⟩ := childFits.label_one
      have notNil : lp.ptr ≠ physMapNodeNil := by omega
      obtain ⟨scan, ran, heap, count⟩ := compactEntries_spec
        (fun _ => ih level (by omega) (by omega)) small present here plain
        pL2Size (Nat.le_refl _) ⟨nodes, pL2Size, 0⟩
        (by rw [Nat.sub_self]; exact ScanHeap.start labelled level block lp.ptr)
        (Or.inl ⟨rfl, fun slot before => by omega⟩)
      obtain ⟨lp', collapsed, compacted⟩ := collapse_spec levels kind shallow present here
        fits heap count
      refine ⟨scan.nodes, lp', ?_, ?_⟩
      · rw [if_neg notNil, ran, bind_ok, collapsed, bind_ok]
      · rw [one, ← isPtr, ← kind]
        exact compacted

end QemuGzvm.Physmem
