import QemuGzvm.Physmem.PageMap
import Mathlib.Tactic.Ring

/-!
Contract: what `phys_page_set_level` does to the tree.

Owns:
- the heap of a node array and the slots its entries stand for;
- `PlainTree`, the tree before compaction: labelled, no level skipped, and no entry
  above the leaves that names the unassigned section;
- `PagesSet`, what setting pages below one entry leaves, and `EntriesSet`, the same
  for the entries of one node;
- the specification of `phys_page_set_level`, which covers that the nodes reserved
  by `phys_page_set` are enough.
-/

namespace QemuGzvm.Physmem

open QemuGzvm.Library

def PhysPageEntry.slot (entry : PhysPageEntry) : Slot Nat :=
  if entry.skip = 0 then .value entry.ptr
  else if entry.skip = 1 ∧ entry.ptr = physMapNodeNil then .empty
  else .child entry.skip entry.ptr

variable {entry : PhysPageEntry} {node block level index leaf middle stop nb : Nat}
  {nodes : List Node} {label : Nat → Label}
  {descend : PhysNodes → PhysPageEntry → Nat → Nat → Checked SetResult} {found : Nat}
  {nodes' : List Node} {label' : Nat → Label} {map : PhysNodes}

theorem slot_eq_value :
    entry.slot = .value found ↔ entry.skip = 0 ∧ entry.ptr = found := by
  unfold PhysPageEntry.slot
  split_ifs <;> simp_all

theorem slot_eq_empty : entry.slot = .empty ↔ entry.skip = 1 ∧ entry.ptr = physMapNodeNil := by
  unfold PhysPageEntry.slot
  split_ifs <;> simp_all

theorem slot_eq_child {skip : Nat} :
    entry.slot = .child skip node ↔ entry.skip = skip ∧ entry.ptr = node ∧ skip ≠ 0 ∧
      ¬(skip = 1 ∧ node = physMapNodeNil) := by
  grind [PhysPageEntry.slot]

def heapOf (nodes : List Node) : RadixHeap Nat pL2Size where
  size := nodes.length
  cells := fun node slot => ((nodes[node]?).elim .empty fun entries => (entries slot).slot)

theorem heapOf_size (nodes : List Node) : (heapOf nodes).size = nodes.length := rfl

theorem heapOf_cells {entries : Node} (present : nodes[node]? = some entries) (slot : Fin pL2Size) :
    (heapOf nodes).cells node slot = (entries slot).slot := by
  simp [heapOf, present]

theorem exists_entries (present : node < nodes.length) : ∃ entries, nodes[node]? = some entries :=
  ⟨_, List.getElem?_eq_getElem present⟩

/-- The second array comes from the first by writing one cell. -/
structure Wrote (nodes : List Node) (node : Nat) (slot : Fin pL2Size) (new : Slot Nat)
    (nodes' : List Node) : Prop where
  length : nodes'.length = nodes.length
  here : (heapOf nodes').cells node slot = new
  beside : ∀ other, other ≠ slot →
    (heapOf nodes').cells node other = (heapOf nodes).cells node other
  elsewhere : ∀ other, other ≠ node → (heapOf nodes').cells other = (heapOf nodes).cells other

theorem writeEntry_spec (present : node < nodes.length) (slot : Fin pL2Size)
    (entry : PhysPageEntry) :
    ∃ nodes', writeEntry nodes node slot entry = .ok nodes' ∧
      Wrote nodes node slot entry.slot nodes' := by
  obtain ⟨entries, stored⟩ := exists_entries present
  have updated : (nodes.modify node fun entries => Function.update entries slot entry)[node]? =
      some (Function.update entries slot entry) := by
    rw [List.getElem?_modify_eq, stored]
    rfl
  refine ⟨_, if_pos present, List.length_modify .., ?_, fun other different => ?_,
    fun other different => ?_⟩
  · rw [heapOf_cells updated, Function.update_self]
  · rw [heapOf_cells updated, heapOf_cells stored, Function.update_of_ne different]
  · funext slot'
    simp only [heapOf]
    rw [List.getElem?_modify_ne _ _ different.symm]

/-! ### Writes and walks -/

/-- The nodes below a slot have the same entries in both heaps. -/
def SameInside (nodes nodes' : List Node) (label : Nat → Label) (height block : Nat) : Prop :=
  ∀ node < nodes.length, Inside pL2Size height block (label node) →
    (heapOf nodes').cells node = (heapOf nodes).cells node

theorem SameInside.walk_iff {height page : Nat} {slot : Slot Nat}
    (same : SameInside nodes nodes' label height block) (length : nodes'.length = nodes.length)
    (labelled : Labelled (heapOf nodes) label) (labelled' : Labelled (heapOf nodes') label)
    (fits : Fits pL2Size nodes.length label height block slot) :
    Walk (heapOf nodes) physSectionUnassigned page height slot found ↔
      Walk (heapOf nodes') physSectionUnassigned page height slot found := by
  constructor
  · intro walk
    refine walk.frame labelled fits fun node present inside => ?_
    exact ⟨Nat.lt_of_lt_of_eq present length.symm, same node present inside⟩
  · intro walk
    have fits' : Fits pL2Size nodes'.length label height block slot := by rwa [length]
    refine walk.frame labelled' fits' fun node present inside => ?_
    rw [heapOf_size, length] at present
    exact ⟨present, (same node present inside).symm⟩

section Writes

variable {slot : Fin pL2Size} {new : Slot Nat}

section

variable (wrote : Wrote nodes node slot new nodes')
include wrote

/-- A write to a node of level `level` is above every walk from one of its slots. -/
theorem Wrote.sameInside (here : label node = ⟨level, block⟩) (block' : Nat) :
    SameInside nodes nodes' label level block' := by
  intro other _ inside
  apply wrote.elsewhere
  rintro rfl
  have lower := inside.1
  rw [here] at lower
  exact Nat.lt_irrefl _ lower

/-- A write to a node is a change below the slot that leads to the node. -/
theorem Wrote.change (here : label node = ⟨level, block⟩) :
    Extends (heapOf nodes) label (heapOf nodes') label (level + 1) block := by
  refine ⟨Nat.le_of_eq wrote.length.symm, fun _ _ => rfl,
    fun other _ outside => wrote.elsewhere other ?_⟩
  rintro rfl
  rw [here] at outside
  exact outside (Inside.self level block)

/-- What holds of the old cells and of the new one holds of all cells. -/
theorem Wrote.forall_cells (holds : Nat → Fin pL2Size → Slot Nat → Prop)
    (before : ∀ other < nodes.length, ∀ slot', holds other slot' ((heapOf nodes).cells other slot'))
    (written : holds node slot new) :
    ∀ other < nodes'.length, ∀ slot', holds other slot' ((heapOf nodes').cells other slot') := by
  intro other present slot'
  rw [wrote.length] at present
  by_cases same : other = node
  · grind [Wrote]
  · rw [wrote.elsewhere other same]
    exact before other present slot'

theorem Wrote.labelled (labelled : Labelled (heapOf nodes) label)
    (here : label node = ⟨level, block⟩)
    (fits : Fits pL2Size nodes.length label level (block * pL2Size + slot) new) :
    Labelled (heapOf nodes') label := by
  refine wrote.forall_cells (fun other slot' cell => Fits pL2Size (heapOf nodes').size label
    (label other).level ((label other).block * pL2Size + slot') cell) ?_ ?_
  · intro other present slot'
    rw [heapOf_size, wrote.length]
    exact labelled other present slot'
  · rw [heapOf_size, wrote.length, here]
    exact fits

end

end Writes

/-! ### The tree before compaction -/

/-- A slot of a tree that skips no level. -/
structure PlainSlot (height : Nat) (slot : Slot Nat) : Prop where
  one : ∀ skip node, slot = .child skip node → skip = 1
  marked : 0 < height → slot ≠ .value physSectionUnassigned
  notNil : slot ≠ .value physMapNodeNil

structure PlainTree (nodes : List Node) (label : Nat → Label) : Prop where
  labelled : Labelled (heapOf nodes) label
  plain : ∀ node < nodes.length, ∀ slot,
    PlainSlot (label node).level ((heapOf nodes).cells node slot)

theorem PlainTree.write {slot : Fin pL2Size} {new : Slot Nat} (tree : PlainTree nodes label)
    (wrote : Wrote nodes node slot new nodes') (here : label node = ⟨level, block⟩)
    (fits : Fits pL2Size nodes.length label level (block * pL2Size + slot) new)
    (plain : PlainSlot level new) : PlainTree nodes' label := by
  refine ⟨wrote.labelled tree.labelled here fits,
    wrote.forall_cells (fun other _ cell => PlainSlot (label other).level cell) tree.plain ?_⟩
  rw [here]
  exact plain

/-! ### Setting pages -/

/-- The pages `[index, stop)` below one entry are set to `leaf`, all other pages of the
entry's block keep their section, and at most `allowance` nodes are new. -/
structure PagesSet (leaf height block index stop allowance : Nat) (nodes : List Node)
    (label : Nat → Label) (slot : Slot Nat) (nodes' : List Node) (label' : Nat → Label)
    (slot' : Slot Nat) : Prop where
  change : Extends (heapOf nodes) label (heapOf nodes') label' height block
  tree : PlainTree nodes' label'
  fits : Fits pL2Size nodes'.length label' height block slot'
  plain : PlainSlot height slot'
  few : nodes'.length ≤ nodes.length + allowance
  content : ∀ page found, page / pL2Size ^ height = block →
    Walk (heapOf nodes) physSectionUnassigned page height slot found →
    Walk (heapOf nodes') physSectionUnassigned page height slot'
      (if index ≤ page ∧ page < stop then leaf else found)

/-- The same for the entries of the node `node` with label `⟨level, block⟩`. -/
structure EntriesSet (leaf level block index stop allowance node : Nat) (nodes : List Node)
    (label : Nat → Label) (nodes' : List Node) (label' : Nat → Label) : Prop where
  change : Extends (heapOf nodes) label (heapOf nodes') label' (level + 1) block
  tree : PlainTree nodes' label'
  few : nodes'.length ≤ nodes.length + allowance
  content : ∀ page found, page / pL2Size ^ (level + 1) = block →
    Walk (heapOf nodes) physSectionUnassigned page level
      ((heapOf nodes).cells node (digit pL2Size level page)) found →
    Walk (heapOf nodes') physSectionUnassigned page level
      ((heapOf nodes').cells node (digit pL2Size level page))
      (if index ≤ page ∧ page < stop then leaf else found)

theorem EntriesSet.refl (tree : PlainTree nodes label) (stop allowance : Nat)
    (nothing : stop ≤ index) :
    EntriesSet leaf level block index stop allowance node nodes label nodes label := by
  refine ⟨Extends.refl .., tree, Nat.le_add_right .., fun page found _ walk => ?_⟩
  rw [if_neg (by omega)]
  exact walk

theorem EntriesSet.trans {first second : Nat} {nodes1 nodes2 nodes3 : List Node}
    {label1 label2 label3 : Nat → Label}
    (one : EntriesSet leaf level block index middle first node nodes1 label1 nodes2 label2)
    (two : EntriesSet leaf level block middle stop second node nodes2 label2 nodes3 label3)
    (low : index ≤ middle) (high : middle ≤ stop) :
    EntriesSet leaf level block index stop (first + second) node nodes1 label1 nodes3 label3 := by
  refine ⟨one.change.trans two.change, two.tree, ?_, fun page found within walk => ?_⟩
  · have := one.few
    have := two.few
    omega
  · grind [EntriesSet]

/-- Set the pages below one entry, then write the entry back. -/
theorem EntriesSet.of_entry {allowance : Nat} {slot : Fin pL2Size} {middle : List Node}
    {new : PhysPageEntry} (tree : PlainTree nodes label) (present : node < nodes.length)
    (here : label node = ⟨level, block⟩) (low : index / pL2Size ^ level = block * pL2Size + slot)
    (high : stop ≤ (block * pL2Size + slot + 1) * pL2Size ^ level)
    (entry : PagesSet leaf level (block * pL2Size + slot) index stop allowance nodes label
      ((heapOf nodes).cells node slot) middle label' new.slot) :
    ∃ nodes', writeEntry middle node slot new = .ok nodes' ∧
      EntriesSet leaf level block index stop allowance node nodes label nodes' label' := by
  have present' : node < middle.length := Nat.lt_of_lt_of_le present entry.change.grow
  have here' : label' node = ⟨level, block⟩ := (entry.change.labels node present).trans here
  obtain ⟨nodes', ran, wrote⟩ := writeEntry_spec present' slot new
  have treeAfter : PlainTree nodes' label' := entry.tree.write wrote here' entry.fits entry.plain
  -- the write is above every walk from a slot of the node
  have lift : ∀ page block' slot' found,
      Fits pL2Size middle.length label' level block' slot' →
      Walk (heapOf middle) physSectionUnassigned page level slot' found →
      Walk (heapOf nodes') physSectionUnassigned page level slot' found :=
    fun page block' slot' found fits walk => ((wrote.sameInside here' block').walk_iff wrote.length
      entry.tree.labelled treeAfter.labelled fits).mp walk
  refine ⟨nodes', ran, (entry.change.widen fun _ => Inside.up).trans (wrote.change here'),
    treeAfter, ?_, ?_⟩
  · rw [wrote.length]
    exact entry.few
  · intro page found within walk
    have split := block_split pL2Size level page
    rw [within] at split
    by_cases same : digit pL2Size level page = slot
    · rw [same] at split walk ⊢
      rw [wrote.here]
      exact lift page _ _ _ entry.fits (entry.content page found split walk)
    · have apart : ¬(index ≤ page ∧ page < stop) := by
        rintro ⟨after, before⟩
        have atLeast := Nat.div_le_div_right (c := pL2Size ^ level) after
        have below := (Nat.div_lt_iff_lt_mul (Nat.pow_pos (by decide : 0 < pL2Size))).mpr
          (Nat.lt_of_lt_of_le before high)
        apply same
        apply Fin.ext
        omega
      rw [if_neg apart, wrote.beside _ same]
      have kept : (heapOf middle).cells node = (heapOf nodes).cells node := by
        refine entry.change.outside node present fun inside => ?_
        have lower := inside.1
        rw [here] at lower
        exact Nat.lt_irrefl _ lower
      have fits : Fits pL2Size nodes.length label level
          (block * pL2Size + digit pL2Size level page)
          ((heapOf nodes).cells node (digit pL2Size level page)) := by
        have fits := tree.labelled node present (digit pL2Size level page)
        rwa [here] at fits
      rw [kept]
      refine lift page _ _ _ (entry.change.fits fits) (entry.change.walk tree.labelled fits ?_ walk)
      intro below inside other
      apply same
      apply Fin.ext
      have := inside.unique other
      omega

theorem PagesSet.whole (node : Nat) (slot : Fin pL2Size) (tree : PlainTree nodes label)
    (isLeaf : 0 < leaf ∧ leaf < physMapNodeNil) (low : index / pL2Size ^ level = block)
    (aligned : index % pL2Size ^ level = 0) :
    PagesSet leaf level block index (index + pL2Size ^ level) 0 nodes label
      ((heapOf nodes).cells node slot) nodes label (PhysPageEntry.mk 0 leaf).slot := by
  refine ⟨Extends.refl .., tree, trivial, ⟨fun _ _ => nofun, fun _ same => ?_, fun same => ?_⟩,
    Nat.le_refl _, fun page found within _ => ?_⟩
  · cases same
    exact Nat.lt_irrefl _ isLeaf.1
  · cases same
    exact Nat.lt_irrefl _ isLeaf.2
  · have start : index = block * pL2Size ^ level := by
      rw [← low, Nat.div_mul_cancel (Nat.dvd_of_mod_eq_zero aligned)]
    obtain ⟨after, before⟩ := block_bounds pL2Size within
    rw [if_pos (by omega)]
    exact .value

/-- The most nodes that setting the pages `[index, stop)` below an entry can add: one
for the entry itself, and one at each lower level for each ragged end. -/
def nodesNeeded (level index stop : Nat) : Nat :=
  1 + ragged pL2Size level index + ragged pL2Size level stop

/-- `set` sets pages below an entry of height `level + 1`. -/
def SetsPages (leaf level : Nat)
    (set : PhysNodes → PhysPageEntry → Nat → Nat → Checked SetResult) : Prop :=
  ∀ (map : PhysNodes) (lp : PhysPageEntry) (label : Nat → Label) (block index nb stop : Nat),
    PlainTree map.nodes label →
    Fits pL2Size map.nodes.length label (level + 1) block lp.slot →
    PlainSlot (level + 1) lp.slot →
    index / pL2Size ^ (level + 1) = block → 0 < nb →
    stop = min (index + nb) ((block + 1) * pL2Size ^ (level + 1)) →
    (∀ page, index ≤ page → page < stop →
      Walk (heapOf map.nodes) physSectionUnassigned page (level + 1) lp.slot
        physSectionUnassigned) →
    map.nodes.length + nodesNeeded level index stop ≤ min map.nodesNbAlloc physMapNodeNil →
    ∃ done label', set map lp index nb = .ok done ∧ done.index = stop ∧
      done.nb = index + nb - stop ∧ done.map.nodesNbAlloc = map.nodesNbAlloc ∧
      PagesSet leaf (level + 1) block index stop (nodesNeeded level index stop) map.nodes label
        lp.slot done.map.nodes label' done.lp.slot

/-! ### The loop over the entries of a node -/

theorem setEntries_zero {step : Nat} (remaining : Nat) (map : PhysNodes) (index : Nat) :
    setEntries descend node step leaf remaining map index 0 = .ok (map, index, 0) := by
  cases remaining with
  | zero => rfl
  | succ remaining => rw [setEntries, if_pos rfl]

/-- A partly covered entry that ends the run of pages pays for itself. -/
theorem nodesNeeded_last (some : 0 < nb)
    (partly : ¬(index % pL2Size ^ (level + 1) = 0 ∧ pL2Size ^ (level + 1) ≤ nb)) :
    nodesNeeded level index (index + nb) ≤
      ragged pL2Size (level + 1) index + ragged pL2Size (level + 1) (index + nb) := by
  rw [nodesNeeded, ragged_succ, ragged_succ]
  split
  case isTrue aligned =>
    have notStop : ¬pL2Size ^ (level + 1) ∣ index + nb := by
      intro alignedStop
      have dividesNb := (Nat.dvd_add_right aligned).mp alignedStop
      exact partly ⟨Nat.mod_eq_zero_of_dvd aligned, Nat.le_of_dvd some dividesNb⟩
    rw [if_neg notStop]
    omega
  case isFalse => omega

/-- The nodes a partly covered entry takes leave enough for the entries behind it. -/
theorem nodesNeeded_partly (some : 0 < nb) (position : index / pL2Size ^ (level + 1) = block)
    (partly : ¬(index % pL2Size ^ (level + 1) = 0 ∧ pL2Size ^ (level + 1) ≤ nb))
    (isMiddle : middle = min (index + nb) ((block + 1) * pL2Size ^ (level + 1))) :
    (middle = index + nb → nodesNeeded level index middle ≤
      ragged pL2Size (level + 1) index + ragged pL2Size (level + 1) (index + nb)) ∧
    (middle < index + nb → ∀ stop, nodesNeeded level index middle +
        (ragged pL2Size (level + 1) middle + ragged pL2Size (level + 1) stop) ≤
      ragged pL2Size (level + 1) index + ragged pL2Size (level + 1) stop) := by
  constructor
  · rintro rfl
    exact nodesNeeded_last some partly
  · intro more stop
    have atEnd : middle = (block + 1) * pL2Size ^ (level + 1) := by omega
    -- the run goes beyond the entry, so it starts inside it
    have raggedStart : ¬pL2Size ^ (level + 1) ∣ index := by
      intro aligned
      have atStart : index = block * pL2Size ^ (level + 1) := by
        rw [← position, Nat.div_mul_cancel aligned]
      rw [Nat.add_mul, Nat.one_mul] at atEnd
      exact partly ⟨Nat.mod_eq_zero_of_dvd aligned, by omega⟩
    have aligned : pL2Size ^ (level + 1) ∣ middle := ⟨block + 1, by rw [atEnd, Nat.mul_comm]⟩
    grind [ragged_of_dvd, nodesNeeded, ragged_succ]

theorem block_end (level block : Nat) :
    (block * pL2Size + pL2Size) * pL2Size ^ level = (block + 1) * pL2Size ^ (level + 1) := by
  rw [Nat.pow_succ]
  ring

theorem entry_end_le (level block : Nat) (slot : Fin pL2Size) :
    (block * pL2Size + slot + 1) * pL2Size ^ level ≤ (block + 1) * pL2Size ^ (level + 1) := by
  rw [← block_end]
  exact Nat.mul_le_mul_right _ (by omega)

/-- The loop sets the rest of the pages, whichever entry it is at. -/
def SetsEntries (descend : PhysNodes → PhysPageEntry → Nat → Nat → Checked SetResult)
    (leaf level remaining : Nat) : Prop :=
  ∀ (map : PhysNodes) (label : Nat → Label) (block index nb stop node : Nat),
    PlainTree map.nodes label → node < map.nodes.length → label node = ⟨level, block⟩ →
    0 < nb → remaining ≤ pL2Size → block * pL2Size ^ (level + 1) ≤ index →
    (remaining = 0 ∧ index = (block + 1) * pL2Size ^ (level + 1) ∨
      0 < remaining ∧ index / pL2Size ^ level = block * pL2Size + (pL2Size - remaining)) →
    stop = min (index + nb) ((block + 1) * pL2Size ^ (level + 1)) →
    (∀ page, index ≤ page → page < stop →
      Walk (heapOf map.nodes) physSectionUnassigned page level
        ((heapOf map.nodes).cells node (digit pL2Size level page)) physSectionUnassigned) →
    map.nodes.length + (ragged pL2Size level index + ragged pL2Size level stop) ≤
      min map.nodesNbAlloc physMapNodeNil →
    ∃ map' label', setEntries descend node (pL2Size ^ level) leaf remaining map index nb =
        .ok (map', stop, index + nb - stop) ∧ map'.nodesNbAlloc = map.nodesNbAlloc ∧
      EntriesSet leaf level block index stop
        (ragged pL2Size level index + ragged pL2Size level stop) node map.nodes label
        map'.nodes label'

theorem setEntries_rest {remaining spent : Nat} (next : PhysNodes)
    (ih : SetsEntries descend leaf level remaining)
    (entry : EntriesSet leaf level block index middle spent node map.nodes label next.nodes label')
    (present : node < map.nodes.length) (here : label node = ⟨level, block⟩)
    (alloc : next.nodesNbAlloc = map.nodesNbAlloc) (few : remaining ≤ pL2Size)
    (start : block * pL2Size ^ (level + 1) ≤ index) (low : index ≤ middle)
    (high : middle ≤ index + nb) (boundary : middle < index + nb →
      middle = (block * pL2Size + (pL2Size - remaining)) * pL2Size ^ level)
    (isStop : stop = min (index + nb) ((block + 1) * pL2Size ^ (level + 1)))
    (within : middle ≤ (block + 1) * pL2Size ^ (level + 1))
    (free : ∀ page, index ≤ page → page < stop →
      Walk (heapOf map.nodes) physSectionUnassigned page level
        ((heapOf map.nodes).cells node (digit pL2Size level page)) physSectionUnassigned)
    (room : map.nodes.length + (ragged pL2Size level index + ragged pL2Size level stop) ≤
      min map.nodesNbAlloc physMapNodeNil) (last : middle = index + nb →
      spent ≤ ragged pL2Size level index + ragged pL2Size level (index + nb))
    (cost : middle < index + nb →
      spent + (ragged pL2Size level middle + ragged pL2Size level stop) ≤
        ragged pL2Size level index + ragged pL2Size level stop) :
    ∃ map' label'', setEntries descend node (pL2Size ^ level) leaf remaining next middle
        (index + nb - middle) = .ok (map', stop, index + nb - stop) ∧
      map'.nodesNbAlloc = map.nodesNbAlloc ∧
      EntriesSet leaf level block index stop
        (ragged pL2Size level index + ragged pL2Size level stop) node map.nodes label
        map'.nodes label'' := by
  have grown := entry.few
  rcases Nat.lt_or_eq_of_le high with more | done
  · have positive : 0 < index + nb - middle := by omega
    have place : remaining = 0 ∧ middle = (block + 1) * pL2Size ^ (level + 1) ∨
        0 < remaining ∧
          middle / pL2Size ^ level = block * pL2Size + (pL2Size - remaining) := by
      rcases Nat.eq_zero_or_pos remaining with none | some
      · refine Or.inl ⟨none, ?_⟩
        rw [boundary more, none, Nat.sub_zero, block_end]
      · refine Or.inr ⟨some, ?_⟩
        rw [boundary more, Nat.mul_div_cancel _ (Nat.pow_pos (by decide))]
    have sum : middle + (index + nb - middle) = index + nb := by omega
    obtain ⟨map', label'', ran, alloc', rest⟩ := ih next label' block middle
      (index + nb - middle) stop node entry.tree
      (Nat.lt_of_lt_of_le present entry.change.grow)
      ((entry.change.labels node present).trans here) positive few
      (Nat.le_trans start low) place (by rw [sum, isStop])
      (fun page after before => by
        have inBlock : page / pL2Size ^ (level + 1) = block := by
          apply Nat.div_eq_of_lt_le
          · omega
          · omega
        have walk := entry.content page _ inBlock (free page (by omega) before)
        rwa [if_neg (by omega)] at walk)
      (by have := cost more; rw [alloc]; omega)
    rw [sum] at ran
    refine ⟨map', label'', ran, alloc'.trans alloc, ?_⟩
    have joined := entry.trans rest low (by omega)
    exact ⟨joined.change, joined.tree, Nat.le_trans joined.few
      (Nat.add_le_add_left (cost more) _), joined.content⟩
  · have isEnd : stop = index + nb := by omega
    rw [done, Nat.sub_self, setEntries_zero]
    refine ⟨next, label', by rw [isEnd, Nat.sub_self], alloc, ?_⟩
    rw [isEnd]
    rw [done] at entry
    exact ⟨entry.change, entry.tree, Nat.le_trans entry.few
      (Nat.add_le_add_left (last done) _), entry.content⟩

/-- The loop, given what its recursive calls do. The induction is on the entries left;
an entry is either covered whole, and then the run starts and ends on its bounds, or
handed down. -/
theorem setEntries_spec (isLeaf : 0 < leaf ∧ leaf < physMapNodeNil)
    (descends : ∀ lower, level = lower + 1 → SetsPages leaf lower descend) (remaining : Nat) :
    SetsEntries descend leaf level remaining := by
  induction remaining with
  | zero =>
    intro map label block index nb stop node tree present here some few start place isStop free room
    rcases place with ⟨_, atEnd⟩ | ⟨impossible, _⟩
    · have isIndex : stop = index := by omega
      refine ⟨map, label, ?_, rfl, EntriesSet.refl tree stop _ (Nat.le_of_eq isIndex)⟩
      rw [setEntries, isIndex, Nat.add_sub_cancel_left]
    · exact (Nat.lt_irrefl _ impossible).elim
  | succ remaining ih =>
    intro map label block index nb stop node tree present here some few start place isStop free room
    obtain ⟨_, position⟩ := place.resolve_left (fun impossible => Nat.succ_ne_zero _ impossible.1)
    obtain ⟨slot, isSlot⟩ : ∃ slot : Fin pL2Size,
        slot = Fin.ofNat pL2Size (pL2Size - (remaining + 1)) := ⟨_, rfl⟩
    have slotVal : slot.val = pL2Size - (remaining + 1) := by
      rw [isSlot]
      exact Nat.mod_eq_of_lt (by omega)
    have position' : index / pL2Size ^ level = block * pL2Size + slot := by rw [slotVal, position]
    have next : block * pL2Size + (pL2Size - remaining) = block * pL2Size + slot + 1 := by omega
    have endBound := entry_end_le level block slot
    obtain ⟨after, before⟩ := block_bounds pL2Size position'
    have entryEnd : (block * pL2Size + slot) * pL2Size ^ level + pL2Size ^ level =
        (block * pL2Size + slot + 1) * pL2Size ^ level := by ring
    rw [setEntries, if_neg (Nat.ne_of_gt some), ← isSlot]
    by_cases whole : index % pL2Size ^ level = 0 ∧ pL2Size ^ level ≤ nb
    · obtain ⟨aligned, covered⟩ := whole
      have atStart : index = (block * pL2Size + slot) * pL2Size ^ level := by
        rw [← position', Nat.div_mul_cancel (Nat.dvd_of_mod_eq_zero aligned)]
      have divides : pL2Size ^ level ∣ index + pL2Size ^ level :=
        Nat.dvd_add (Nat.dvd_of_mod_eq_zero aligned) (Nat.dvd_refl _)
      obtain ⟨nodes', wrote, entry⟩ := EntriesSet.of_entry tree present here position'
        (by omega) (PagesSet.whole node slot tree isLeaf position' aligned)
      rw [if_pos ⟨aligned, covered⟩, wrote, bind_ok]
      have counted : nb - pL2Size ^ level = index + nb - (index + pL2Size ^ level) := by omega
      rw [counted]
      refine setEntries_rest { map with nodes := nodes' } ih entry
        present here rfl (by omega) start (by omega) (by omega) (fun _ => ?_) isStop (by omega)
        free room (fun _ => by omega) (fun _ => ?_)
      · rw [next, ← entryEnd, atStart]
      · rw [ragged_of_dvd pL2Size divides]
        omega
    · have above : 0 < level := by
        grind
      obtain ⟨lower, isLevel⟩ : ∃ lower, level = lower + 1 := ⟨level - 1, by omega⟩
      obtain ⟨entries, stored⟩ := exists_entries present
      have cell : (heapOf map.nodes).cells node slot = (entries slot).slot :=
        heapOf_cells stored slot
      have fits : Fits pL2Size map.nodes.length label level (block * pL2Size + slot)
          (entries slot).slot := by
        have fits := tree.labelled node present slot
        rwa [here, cell] at fits
      have plain : PlainSlot level (entries slot).slot := by
        have plain := tree.plain node present slot
        rwa [here, cell] at plain
      obtain ⟨middle, isMiddle⟩ : ∃ middle, middle =
        min (index + nb) ((block * pL2Size + slot + 1) * pL2Size ^ level) := ⟨_, rfl⟩
      subst isLevel
      obtain ⟨lastCost, firstCost⟩ := nodesNeeded_partly some position' whole isMiddle
      have enough : nodesNeeded lower index middle ≤
          ragged pL2Size (lower + 1) index + ragged pL2Size (lower + 1) stop := by
        rcases Nat.lt_or_ge middle (index + nb) with more | last
        · have := firstCost more stop
          omega
        · grind
      have freeBelow : ∀ page, index ≤ page → page < middle →
          Walk (heapOf map.nodes) physSectionUnassigned page (lower + 1) (entries slot).slot
            physSectionUnassigned := by
        intro page low high
        have inEntry : page / pL2Size ^ (lower + 1) = block * pL2Size + slot := by
          apply Nat.div_eq_of_lt_le
          · exact Nat.le_trans after low
          · exact Nat.lt_of_lt_of_le high (isMiddle ▸ Nat.min_le_right _ _)
        have walk := free page low (by omega)
        rwa [(block_of_split pL2Size inEntry).2, cell] at walk
      obtain ⟨done, label', ran, doneIndex, doneNb, alloc, below⟩ := descends lower rfl map
        (entries slot) label (block * pL2Size + slot) index nb middle tree fits plain position'
        some isMiddle freeBelow (by omega)
      rw [← cell] at below
      obtain ⟨nodes', wrote, entry⟩ := EntriesSet.of_entry tree present here position'
        (by omega) below
      rw [if_neg whole, readAt_of_getElem? stored, bind_ok, ran, bind_ok, wrote, bind_ok,
        doneIndex, doneNb]
      refine setEntries_rest { done.map with nodes := nodes' } ih entry
        present here alloc (by omega) start (by omega) (by omega) (fun _ => ?_) isStop (by omega)
        free room lastCost (fun more => firstCost more stop)
      rw [next]
      omega

/-! ### The whole call -/

theorem freshEntry_slot (level : Nat) : (freshEntry (level = 0)).slot =
    if level = 0 then .value physSectionUnassigned else .empty := by
  by_cases bottom : level = 0 <;> simp [freshEntry, PhysPageEntry.slot, bottom]

theorem PlainTree.alloc (tree : PlainTree nodes label) (level block : Nat)
    (isNodes : nodes' = nodes ++ [fun _ => freshEntry (level = 0)]) :
    ∃ label', label' nodes.length = ⟨level, block⟩ ∧ PlainTree nodes' label' ∧
      Extends (heapOf nodes) label (heapOf nodes') label' (level + 1) block ∧
      ∀ page slot, Walk (heapOf nodes') physSectionUnassigned page level
        ((heapOf nodes').cells nodes.length slot) physSectionUnassigned := by
  obtain ⟨label', isLabel⟩ : ∃ label', label' = Function.update label nodes.length ⟨level, block⟩ :=
    ⟨_, rfl⟩
  have labelNew : label' nodes.length = ⟨level, block⟩ := by rw [isLabel, Function.update_self]
  have labels : ∀ node < nodes.length, label' node = label node := by
    intro node present
    rw [isLabel, Function.update_of_ne (Nat.ne_of_lt present)]
  have length : nodes'.length = nodes.length + 1 := by rw [isNodes, List.length_append]; rfl
  have old : ∀ node < nodes.length, (heapOf nodes').cells node = (heapOf nodes).cells node := by
    grind [heapOf]
  have new : ∀ slot, (heapOf nodes').cells nodes.length slot =
      if level = 0 then .value physSectionUnassigned else .empty := by
    intro slot
    have stored : nodes'[nodes.length]? = some fun _ => freshEntry (level = 0) := by
      rw [isNodes, List.getElem?_append_right (Nat.le_refl _), Nat.sub_self]
      rfl
    rw [heapOf_cells stored, freshEntry_slot]
  refine ⟨label', labelNew, ?_, ?_, ?_⟩
  · constructor
    · intro node present slot
      rw [heapOf_size, length] at present
      rcases Nat.lt_succ_iff_lt_or_eq.mp present with before | rfl
      · rw [old node before, labels node before]
        exact (tree.labelled node before slot).mono (by rw [heapOf_size, heapOf_size]; omega) labels
      · rw [new, labelNew]
        split
        case isTrue => trivial
        case isFalse above => exact Nat.pos_of_ne_zero above
    · intro node present slot
      rw [length] at present
      rcases Nat.lt_succ_iff_lt_or_eq.mp present with before | rfl
      · rw [old node before, labels node before]
        exact tree.plain node before slot
      · rw [new, labelNew]
        split
        case isTrue bottom =>
          refine ⟨fun _ _ => nofun, fun above => ?_, by decide⟩
          exact (Nat.ne_of_gt above bottom).elim
        case isFalse => exact ⟨fun _ _ => nofun, fun _ => nofun, nofun⟩
  · exact ⟨by rw [heapOf_size, heapOf_size]; omega, labels, fun node present _ => old node present⟩
  · intro page slot
    rw [new]
    split
    case isTrue => exact .value
    case isFalse above => exact .empty (Nat.pos_of_ne_zero above)

/-- After `pointEntry` the entry has its own node, and every page of its block reads as
before. -/
theorem pointEntry_spec {lp : PhysPageEntry} (tree : PlainTree map.nodes label)
    (fits : Fits pL2Size map.nodes.length label (level + 1) block lp.slot)
    (plain : PlainSlot (level + 1) lp.slot)
    (free : Walk (heapOf map.nodes) physSectionUnassigned index (level + 1) lp.slot
      physSectionUnassigned) (room : map.nodes.length + 1 ≤ min map.nodesNbAlloc physMapNodeNil):
    ∃ lp' map' label', pointEntry map lp level = .ok (lp', map') ∧
      lp'.slot = .child 1 lp'.ptr ∧ lp'.ptr < map'.nodes.length ∧
      label' lp'.ptr = ⟨level, block⟩ ∧ map'.nodesNbAlloc = map.nodesNbAlloc ∧
      map'.nodes.length ≤ map.nodes.length + 1 ∧ PlainTree map'.nodes label' ∧
      Extends (heapOf map.nodes) label (heapOf map'.nodes) label' (level + 1) block ∧
      ∀ page found,
        Walk (heapOf map.nodes) physSectionUnassigned page (level + 1) lp.slot found →
        Walk (heapOf map'.nodes) physSectionUnassigned page level
          ((heapOf map'.nodes).cells lp'.ptr (digit pL2Size level page)) found := by
  cases slot : lp.slot with
  | value found =>
    rw [slot] at free plain
    cases free
    exact (plain.marked (Nat.succ_pos level) rfl).elim
  | empty =>
    obtain ⟨skip, nil⟩ := slot_eq_empty.mp slot
    have notNil : map.nodes.length ≠ physMapNodeNil := by omega
    have notFull : map.nodes.length ≠ map.nodesNbAlloc := by omega
    obtain ⟨label', labelled, tree', change, unassigned⟩ := tree.alloc level block rfl
    refine ⟨{ lp with ptr := map.nodes.length },
      { map with nodes := map.nodes ++ [fun _ => freshEntry (level = 0)] }, label', ?_, ?_, ?_,
      labelled, rfl, ?_, tree', change, ?_⟩
    · rw [pointEntry, if_pos ⟨by omega, nil⟩, physMapNodeAlloc, if_neg notNil, if_neg notFull]
      rfl
    · exact slot_eq_child.mpr ⟨skip, rfl, Nat.one_ne_zero, fun isNil => notNil isNil.2⟩
    · rw [List.length_append]
      exact Nat.lt_succ_self _
    · rw [List.length_append]
      exact Nat.le_refl _
    · intro page found walk
      cases walk
      exact unassigned page _
  | child skip node =>
    rw [slot] at fits plain
    obtain ⟨isSkip, isPtr, notLeaf, notNil⟩ := slot_eq_child.mp slot
    have one : skip = 1 := plain.one skip node rfl
    subst one
    rw [← isPtr] at fits
    have labelled : label lp.ptr = ⟨level, block⟩ := fits.label_one
    have present : lp.ptr < map.nodes.length := fits.2.1
    refine ⟨lp, map, label, ?_, ?_, present, labelled, rfl, Nat.le_succ _, tree,
      Extends.refl .., ?_⟩
    · grind [pointEntry]
    · rw [slot, isPtr]
    · intro page found walk
      rw [← isPtr] at walk
      exact (walk_child_one.mp walk).2

theorem setNode_spec (entries : ∀ remaining, SetsEntries descend leaf level remaining) :
    SetsPages leaf level (setNode descend leaf level) := by
  intro map lp label block index nb stop tree fits plain position some isStop free room
  obtain ⟨start, before⟩ := block_bounds pL2Size position
  have stopAfter : index < stop := by
    rw [isStop, Nat.add_mul, Nat.one_mul]
    exact Nat.lt_min.mpr ⟨Nat.lt_add_of_pos_right some, before⟩
  have counted : nodesNeeded level index stop =
      1 + (ragged pL2Size level index + ragged pL2Size level stop) := Nat.add_assoc ..
  obtain ⟨lp', map', label', pointed, isChild, present, labelled, alloc, few, tree', change,
    content⟩ := pointEntry_spec tree fits plain (free index (Nat.le_refl _) stopAfter) (by omega)
  have split := block_split pL2Size level index
  rw [position] at split
  obtain ⟨map'', label'', ran, alloc', set⟩ := entries (pL2Size - digit pL2Size level index) map'
    label' block index nb stop lp'.ptr tree' present labelled some (Nat.sub_le _ _) start
    (Or.inr ⟨by omega, by omega⟩) isStop
    (fun page low high => content page _ (free page low high)) (by rw [alloc]; omega)
  refine ⟨⟨map'', lp', stop, index + nb - stop⟩, label'', ?_, rfl, rfl, alloc'.trans alloc,
    change.trans set.change, set.tree, ?_, ?_, ?_, ?_⟩
  · rw [setNode, pointed, bind_ok]
    dsimp only
    rw [← digit_val, ran, bind_ok]
  · have kept := set.change.labels lp'.ptr present
    rw [labelled] at kept
    rw [isChild]
    refine ⟨Nat.one_pos, Nat.lt_of_lt_of_le present set.change.grow, by rw [kept], ?_⟩
    rw [kept, Nat.sub_self, Nat.pow_zero, Nat.div_one]
  · rw [isChild]
    refine ⟨?_, fun _ => nofun, nofun⟩
    intro skip node same
    cases same
    rfl
  · have := set.few
    dsimp only
    omega
  · intro page found within walk
    rw [isChild]
    exact walk_child_one.mpr ⟨Nat.lt_of_lt_of_le present set.change.grow,
      set.content page found within (content page found walk)⟩

/-- `phys_page_set_level` sets the pages it is given, up to the end of its block, and
leaves every other page as it was. -/
theorem physPageSetLevel_spec (isLeaf : 0 < leaf ∧ leaf < physMapNodeNil) (level : Nat) :
    SetsPages leaf level (physPageSetLevel leaf level) := by
  induction level with
  | zero =>
    apply setNode_spec
    exact setEntries_spec isLeaf (fun lower isLower => (Nat.succ_ne_zero lower isLower.symm).elim)
  | succ level ih =>
    apply setNode_spec
    refine setEntries_spec isLeaf fun lower isLower => ?_
    rw [← Nat.succ.inj isLower]
    exact ih

end QemuGzvm.Physmem
