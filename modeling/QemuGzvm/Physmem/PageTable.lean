import QemuGzvm.Physmem.Compact
import QemuGzvm.Physmem.Dispatch

/-!
Contract: the radix tree of a dispatch as a function from pages to sections.

Owns:
- `PageTable`, the abstract view of the tree while it is built;
- `phys_page_set` as an update of that function;
- `CompactTable`, what is left of it after the compaction.
-/

namespace QemuGzvm.Physmem

open QemuGzvm.Library

def TargetPage.pages (page : TargetPage) : Nat := 2 ^ (64 - page.bits)

section

variable (page : TargetPage)
include page

theorem TargetPage.size_pos : 0 < page.size := Nat.two_pow_pos _

theorem TargetPage.size_le : page.size ≤ 2 ^ 16 :=
  Nat.pow_le_pow_right (by decide) page.max

theorem TargetPage.pages_lt : page.pages < 2 ^ 64 :=
  Nat.pow_lt_pow_right (by decide) (by have := page.min; omega)

theorem TargetPage.pages_mul_size : page.pages * page.size = 2 ^ 64 := by
  have := page.max
  rw [TargetPage.pages, TargetPage.size, ← Nat.pow_add]
  congr 1
  omega

theorem TargetPage.div_lt_pages {addr : Nat} (low : addr < 2 ^ 64) :
    addr / page.size < page.pages := by
  rw [Nat.div_lt_iff_lt_mul page.size_pos, page.pages_mul_size]
  exact low

variable {index : Nat} {d : AddressSpaceDispatch} {sectionOf : Nat → Nat}

theorem TargetPage.mul_size_lt (inside : index < page.pages) :
    index * page.size < 2 ^ 64 := by
  rw [← page.pages_mul_size]
  exact Nat.mul_lt_mul_of_pos_right inside page.size_pos

/-- The tree has room for every page. -/
theorem TargetPage.pages_le : page.pages ≤ pL2Size ^ page.pL2Levels := by
  have := page.min
  rw [page.pL2Levels_eq, show pL2Size ^ 6 = 2 ^ 54 by decide]
  exact Nat.pow_le_pow_right (by decide) (by omega)

end

/-- The walk of `phys_page_find` is the walk of the heap. -/
theorem physPageWalk_of_walk {nodes : List Node} {height found : Nat} {slot : Slot Nat}
    {lp : PhysPageEntry} (small : nodes.length ≤ physMapNodeNil) (isSlot : lp.slot = slot)
    (walk : Walk (heapOf nodes) physSectionUnassigned index height slot found) :
    physPageWalk nodes index height lp = .ok found := by
  induction walk generalizing lp with
  | empty positive =>
    obtain ⟨isSkip, isNil⟩ := slot_eq_empty.mp isSlot
    rw [physPageWalk, dif_pos (by omega), if_pos isNil]
  | value =>
    obtain ⟨isLeaf, isFound⟩ := slot_eq_value.mp isSlot
    rw [physPageWalk, dif_neg (by omega), isFound]
  | @child height skip node found positive fits present rest ih =>
    obtain ⟨isSkip, isPtr, _, _⟩ := slot_eq_child.mp isSlot
    have bound : node < nodes.length := present
    obtain ⟨entries, stored⟩ := exists_entries bound
    rw [physPageWalk, dif_pos (by omega), if_neg (by omega), isPtr,
      readAt_of_getElem? stored, bind_ok, isSkip]
    exact ih (heapOf_cells stored _).symm

variable (page : TargetPage)

/-- The tree of `d` maps each page to a section, `PHYS_SECTION_UNASSIGNED` if it is not
set. -/
structure PageTable (d : AddressSpaceDispatch) (sectionOf : Nat → Nat) : Prop where
  tree : ∃ label, PlainTree d.map.nodes label ∧
    Fits pL2Size d.map.nodes.length label page.pL2Levels 0 d.physMap.slot
  plain : PlainSlot page.pL2Levels d.physMap.slot
  walk : ∀ index < pL2Size ^ page.pL2Levels,
    Walk (heapOf d.map.nodes) physSectionUnassigned index page.pL2Levels d.physMap.slot
      (sectionOf index)

/-- The most nodes one call of `phys_page_set` can add. -/
def nodesPerSet : Nat := 11

theorem nodesNeeded_le (index stop : Nat) : nodesNeeded 5 index stop ≤ nodesPerSet := by
  have := ragged_le pL2Size 5 index
  have := ragged_le pL2Size 5 stop
  rw [nodesNeeded, nodesPerSet]
  omega

theorem physMapNodeReserve_spec (map : PhysNodes) (allocHint nodes : Nat) :
    (physMapNodeReserve map allocHint nodes).1.nodes = map.nodes ∧
      map.nodes.length + nodes ≤ (physMapNodeReserve map allocHint nodes).1.nodesNbAlloc := by
  grind [physMapNodeReserve]

theorem physPageSet_spec {nb leaf : Nat} (table : PageTable page d sectionOf)
    (isLeaf : 0 < leaf ∧ leaf < physMapNodeNil) (some : 0 < nb) (inside : index + nb ≤ page.pages)
    (room : d.map.nodes.length + nodesPerSet ≤ physMapNodeNil)
    (free : ∀ x, index ≤ x → x < index + nb → sectionOf x = physSectionUnassigned) :
    ∃ d', physPageSet page d index nb leaf = .ok d' ∧ d'.sections = d.sections ∧
      d'.subpages = d.subpages ∧ d'.mruSection = d.mruSection ∧
      d'.map.nodes.length ≤ d.map.nodes.length + nodesPerSet ∧
      PageTable page d' fun x => if index ≤ x ∧ x < index + nb then leaf else sectionOf x := by
  obtain ⟨label, tree, fits⟩ := table.tree
  have levels : page.pL2Levels = 5 + 1 := page.pL2Levels_eq
  have total := page.pages_le
  obtain ⟨sameNodes, reserved⟩ :=
    physMapNodeReserve_spec d.map d.allocHint (3 * page.pL2Levels)
  obtain ⟨reserve, isReserve⟩ : ∃ reserve, reserve =
    physMapNodeReserve d.map d.allocHint (3 * page.pL2Levels) := ⟨_, rfl⟩
  rw [← isReserve] at sameNodes reserved
  have needed := nodesNeeded_le index (index + nb)
  have plain := table.plain
  rw [levels] at fits plain total reserved
  have inRoot : ∀ x, x < index + nb → x / pL2Size ^ (5 + 1) = 0 := fun x before =>
    Nat.div_eq_of_lt (by omega)
  obtain ⟨done, label', ran, _, _, _, set⟩ := physPageSetLevel_spec isLeaf 5 reserve.1 d.physMap
    label 0 index nb (index + nb) (sameNodes.symm ▸ tree) (sameNodes.symm ▸ fits) plain
    (inRoot index (by omega)) some (by omega)
    (fun x low high => by
      have walk := table.walk x (by rw [levels]; omega)
      rwa [free x low high, levels, ← sameNodes] at walk)
    (by rw [sameNodes, nodesPerSet] at *; omega)
  refine ⟨{ d with map := done.map, physMap := done.lp, allocHint := reserve.2 }, ?_, rfl, rfl, rfl,
    ?_, ⟨⟨label', set.tree, ?_⟩, ?_, ?_⟩⟩
  · rw [physPageSet, ← isReserve, levels]
    dsimp only
    rw [Nat.add_sub_cancel, ran, bind_ok]
  · have := set.few
    rw [sameNodes] at this
    dsimp only
    omega
  · rw [levels]
    exact set.fits
  · rw [levels]
    exact set.plain
  · intro x before
    rw [levels]
    refine set.content x (sectionOf x) (Nat.div_eq_of_lt (levels ▸ before)) ?_
    rw [sameNodes, ← levels]
    exact table.walk x before

/-! ### What a lookup needs of the tree -/

/-- The walk ends at the page's section; a page without one may end at the section of
another page. -/
def ReadsAs (d : AddressSpaceDispatch) (sectionOf : Nat → Nat) : Prop :=
  ∀ index < page.pages, ∃ found,
    physPageWalk d.map.nodes index page.pL2Levels d.physMap = .ok found ∧
      (found = sectionOf index ∨
        sectionOf index = physSectionUnassigned ∧ ∃ other, found = sectionOf other)

theorem PageTable.readsAs (table : PageTable page d sectionOf)
    (small : d.map.nodes.length ≤ physMapNodeNil) :
    ReadsAs page d sectionOf := by
  intro index before
  refine ⟨sectionOf index, physPageWalk_of_walk small rfl (table.walk index ?_), Or.inl rfl⟩
  exact Nat.lt_of_lt_of_le before page.pages_le

theorem addressSpaceDispatchCompact_spec (table : PageTable page d sectionOf)
    (small : d.map.nodes.length ≤ physMapNodeNil) :
    ∃ d', addressSpaceDispatchCompact page d = .ok d' ∧ d'.sections = d.sections ∧
      d'.subpages = d.subpages ∧ d'.mruSection = d.mruSection ∧ ReadsAs page d' sectionOf := by
  unfold addressSpaceDispatchCompact
  split
  case isFalse => exact ⟨d, rfl, rfl, rfl, rfl, table.readsAs page small⟩
  case isTrue notLeaf =>
    obtain ⟨label, tree, fits⟩ := table.tree
    obtain ⟨nodes, lp, ran, compacted⟩ := physPageCompact_spec page.pL2Levels page.pL2Levels
      page.pL2Levels (Nat.le_refl _) (by rw [page.pL2Levels_eq]; decide) d.map.nodes d.physMap label
      0 tree.labelled small (fun node present _ slot => tree.plain node present slot) fits
      table.plain notLeaf
    rw [ran, bind_ok]
    refine ⟨_, rfl, rfl, rfl, rfl, fun index before => ?_⟩
    have inRoot := Nat.lt_of_lt_of_le before page.pages_le
    have small' : nodes.length ≤ physMapNodeNil := by
      rw [compacted.length]
      exact small
    have fits' : Fits pL2Size nodes.length label page.pL2Levels 0 lp.slot := by
      rw [compacted.length]
      exact compacted.fits
    by_cases unset : sectionOf index = physSectionUnassigned
    · obtain ⟨found, walk⟩ := compacted.labelled.walk_total physSectionUnassigned index fits'
      refine ⟨found, physPageWalk_of_walk small' rfl walk, ?_⟩
      rcases compacted.origin index found walk with unassigned | ⟨other, within, walk⟩
      · exact Or.inl (unassigned.trans unset.symm)
      · refine Or.inr ⟨unset, other, walk.unique (table.walk other ?_)⟩
        exact (Nat.div_eq_zero_iff_lt (Nat.pow_pos (by decide))).mp within
    · have walk := compacted.keeps index (sectionOf index) (Nat.div_eq_of_lt inRoot) unset
        (table.walk index inRoot)
      exact ⟨sectionOf index, physPageWalk_of_walk small' rfl walk, Or.inl rfl⟩

end QemuGzvm.Physmem
