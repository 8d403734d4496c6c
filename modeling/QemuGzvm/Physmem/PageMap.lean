import QemuGzvm.Library.CheckedArray
import QemuGzvm.Library.RadixHeap

/-!
Contract: the radix tree from page numbers to section numbers (`phys_map_node_*`,
`phys_page_set*`, `phys_page_compact` and the walk of `phys_page_find` of
`system/physmem.c`).

Owns:
- page sizes, entries, nodes and the allocation of nodes;
- setting a run of pages, with entries that stand for a whole subtree;
- path compression;
- the walk, which does not look at skipped digits.

A pointer to an entry (`lp`) is passed as the entry's value and the new value is
returned: the caller writes it back. Page numbers stay below 2^54 and node numbers
below 2^26, so that no sum wraps.
-/

namespace QemuGzvm.Physmem

open QemuGzvm.Library

/-- `TARGET_PAGE_BITS`, at least `TARGET_PAGE_BITS_MIN`. Section numbers are of type
`uint16_t` and there are up to `TARGET_PAGE_SIZE` of them. -/
structure TargetPage where
  bits : Nat
  min : 10 ≤ bits
  max : bits ≤ 16

def TargetPage.size (page : TargetPage) : Nat := 2 ^ page.bits

/-- `P_L2_LEVELS`, with `P_L2_BITS` 9 and `ADDR_SPACE_BITS` 64. -/
def TargetPage.pL2Levels (page : TargetPage) : Nat := (64 - page.bits - 1) / 9 + 1

theorem TargetPage.pL2Levels_eq (page : TargetPage) : page.pL2Levels = 6 := by
  have := page.min
  have := page.max
  unfold TargetPage.pL2Levels
  omega

abbrev pL2Size : Nat := 512

instance : NeZero pL2Size := ⟨by decide⟩

/-- `PHYS_MAP_NODE_NIL`: all of the 26 bits of `ptr`. -/
def physMapNodeNil : Nat := 2 ^ 26 - 1

def physSectionUnassigned : Nat := 0

structure PhysPageEntry where
  skip : Nat
  ptr : Nat
deriving DecidableEq, Repr

abbrev Node := Fin pL2Size → PhysPageEntry

/-- The node half of `PhysPageMap`; `nodes_nb` is the length of the list. -/
structure PhysNodes where
  nodes : List Node
  nodesNbAlloc : Nat

/-- `phys_map_node_reserve`, which keeps `alloc_hint` from call to call. -/
def physMapNodeReserve (map : PhysNodes) (allocHint nodes : Nat) : PhysNodes × Nat :=
  if map.nodesNbAlloc < map.nodes.length + nodes then
    let alloc := max allocHint (map.nodes.length + nodes)
    ({ map with nodesNbAlloc := alloc }, alloc)
  else (map, allocHint)

def freshEntry (leaf : Bool) : PhysPageEntry where
  skip := if leaf then 0 else 1
  ptr := if leaf then physSectionUnassigned else physMapNodeNil

def physMapNodeAlloc (map : PhysNodes) (leaf : Bool) : Checked (Nat × PhysNodes) :=
  let ret := map.nodes.length
  if ret = physMapNodeNil then .error .assertion
  else if ret = map.nodesNbAlloc then .error .assertion
  else .ok (ret, { map with nodes := map.nodes ++ [fun _ => freshEntry leaf] })

def writeEntry (nodes : List Node) (node : Nat) (slot : Fin pL2Size) (entry : PhysPageEntry) :
    Checked (List Node) :=
  if node < nodes.length then
    .ok (nodes.modify node fun entries => Function.update entries slot entry)
  else .error .outOfBounds

/-- What `phys_page_set_level` leaves: the map, `*lp`, `*index` and `*nb`. -/
structure SetResult where
  map : PhysNodes
  lp : PhysPageEntry
  index : Nat
  nb : Nat

/-- The loop over the entries of `node`: `remaining` of them are left, the next one is
`P_L2_SIZE - remaining`. The recursive call is `descend`. -/
def setEntries (descend : PhysNodes → PhysPageEntry → Nat → Nat → Checked SetResult)
    (node step leaf : Nat) : Nat → PhysNodes → Nat → Nat → Checked (PhysNodes × Nat × Nat)
  | 0, map, index, nb => .ok (map, index, nb)
  | remaining + 1, map, index, nb =>
    let slot : Fin pL2Size := Fin.ofNat pL2Size (pL2Size - (remaining + 1))
    if nb = 0 then .ok (map, index, nb)
    else if index % step = 0 ∧ step ≤ nb then
      (writeEntry map.nodes node slot ⟨0, leaf⟩).bind fun nodes =>
        setEntries descend node step leaf remaining { map with nodes := nodes }
          (index + step) (nb - step)
    else
      (readAt map.nodes node).bind fun entries =>
        (descend map (entries slot) index nb).bind fun done =>
          (writeEntry done.map.nodes node slot done.lp).bind fun nodes =>
            setEntries descend node step leaf remaining { done.map with nodes := nodes }
              done.index done.nb

/-- The head of `phys_page_set_level`: an entry without a node gets one. -/
def pointEntry (map : PhysNodes) (lp : PhysPageEntry) (level : Nat) :
    Checked (PhysPageEntry × PhysNodes) :=
  if lp.skip ≠ 0 ∧ lp.ptr = physMapNodeNil then
    (physMapNodeAlloc map (level = 0)).bind fun (ret, map) => .ok ({ lp with ptr := ret }, map)
  else .ok (lp, map)

/-- One call of `phys_page_set_level`, with its recursive call as a parameter. -/
def setNode (descend : PhysNodes → PhysPageEntry → Nat → Nat → Checked SetResult)
    (leaf level : Nat) (map : PhysNodes) (lp : PhysPageEntry) (index nb : Nat) :
    Checked SetResult :=
  let step := pL2Size ^ level
  (pointEntry map lp level).bind fun (lp, map) =>
    (setEntries descend lp.ptr step leaf (pL2Size - index / step % pL2Size) map index nb).bind
      fun (map, index, nb) => .ok ⟨map, lp, index, nb⟩

/-- `phys_page_set_level`. At level 0 the step is 1 and there is no recursive call. -/
def physPageSetLevel (leaf : Nat) : Nat → PhysNodes → PhysPageEntry → Nat → Nat →
    Checked SetResult
  | 0 => setNode (fun _ _ _ _ => .error .assertion) leaf 0
  | level + 1 => setNode (physPageSetLevel leaf level) leaf (level + 1)

/-! ### Compaction -/

/-- What the loop of `phys_page_compact` has found. -/
structure CompactScan where
  nodes : List Node
  validPtr : Nat := pL2Size
  valid : Nat := 0

/-- The loop of `phys_page_compact` over the entries of `node`, of which `remaining`
are left. -/
def compactEntries (descend : List Node → PhysPageEntry → Checked (List Node × PhysPageEntry))
    (node : Nat) : Nat → CompactScan → Checked CompactScan
  | 0, scan => .ok scan
  | remaining + 1, scan =>
    let slot : Fin pL2Size := Fin.ofNat pL2Size (pL2Size - (remaining + 1))
    (readAt scan.nodes node).bind fun entries =>
      if (entries slot).ptr = physMapNodeNil then compactEntries descend node remaining scan
      else if (entries slot).skip = 0 then
        compactEntries descend node remaining
          { scan with validPtr := slot, valid := scan.valid + 1 }
      else
        (descend scan.nodes (entries slot)).bind fun (nodes, entry) =>
          (writeEntry nodes node slot entry).bind fun nodes =>
            compactEntries descend node remaining ⟨nodes, slot, scan.valid + 1⟩

/-- The end of `phys_page_compact`: an entry whose node has a single valid entry takes
its place. -/
def collapse (levels : Nat) (lp : PhysPageEntry) (scan : CompactScan) (node : Nat) :
    Checked PhysPageEntry :=
  if scan.valid ≠ 1 then .ok lp
  else if bounded : scan.validPtr < pL2Size then
    (readAt scan.nodes node).bind fun entries =>
      let only := entries ⟨scan.validPtr, bounded⟩
      if 2 ^ 6 ≤ levels ∧ 2 ^ 6 ≤ lp.skip + only.skip then .ok lp
      else .ok ⟨if only.skip = 0 then 0 else (lp.skip + only.skip) % 2 ^ 6, only.ptr⟩
  else .error .assertion

/-- `phys_page_compact`; `depth` bounds the recursion. -/
def physPageCompact (levels : Nat) : Nat → List Node → PhysPageEntry →
    Checked (List Node × PhysPageEntry)
  | 0, _, _ => .error .assertion
  | depth + 1, nodes, lp =>
    if lp.ptr = physMapNodeNil then .ok (nodes, lp)
    else
      (compactEntries (physPageCompact levels depth) lp.ptr pL2Size ⟨nodes, pL2Size, 0⟩).bind
        fun scan => (collapse levels lp scan lp.ptr).bind fun lp' => .ok (scan.nodes, lp')

/-! ### The walk -/

/-- The loop of `phys_page_find`: the section number the walk ends at. -/
def physPageWalk (nodes : List Node) (index : Nat) (i : Nat) (lp : PhysPageEntry) : Checked Nat :=
  if _more : lp.skip ≠ 0 ∧ lp.skip ≤ i then
    if lp.ptr = physMapNodeNil then .ok physSectionUnassigned
    else
      (readAt nodes lp.ptr).bind fun entries =>
        physPageWalk nodes index (i - lp.skip) (entries (digit pL2Size (i - lp.skip) index))
  else .ok lp.ptr
termination_by i
decreasing_by omega

end QemuGzvm.Physmem
