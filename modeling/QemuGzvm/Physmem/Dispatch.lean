import QemuGzvm.Memory.FlatView
import QemuGzvm.Physmem.PageMap

/-!
Contract: building and reading the dispatch of a flat view (`phys_mrsadd`,
`register_subpage`, `register_multipage`, `flatview_add_to_dispatch`,
`subpage_register`, `phys_page_find` and `address_space_lookup_region` of
`system/physmem.c`).

Owns:
- sections and subpages;
- registering a flat range, cut at page bounds;
- lookups, with the section found last kept in `mru_section`.

A pointer to a section is its number, and a pointer to a `subpage_t` is its number
in the order of creation. The flags of a section and its flat view are not read here
and are left out; so is the reference count of its region.
-/

namespace QemuGzvm.Physmem

open QemuGzvm.Library QemuGzvm.Memory

/-- The region of a section: `io_mem_unassigned`, a region of a flat range or the
`iomem` of a subpage, the only regions with `subpage` set. -/
inductive DispatchMr where
  | ioMemUnassigned
  | region (mr : MrId)
  | subpage (index : Nat)
deriving DecidableEq, Repr

structure DispatchSection where
  mr : DispatchMr
  offsetWithinRegion : Nat
  offsetWithinAddressSpace : Nat
  size : Nat
deriving DecidableEq, Repr

/-- `subpage_t`; `sub_section` has one cell for each byte of the page. -/
structure Subpage where
  base : Nat
  subSection : Nat → Nat

structure AddressSpaceDispatch where
  mruSection : Option Nat
  physMap : PhysPageEntry
  map : PhysNodes
  sections : List DispatchSection
  subpages : List Subpage
  /-- The static of `phys_map_node_reserve`; views are built one at a time. -/
  allocHint : Nat

variable (page : TargetPage)

/-- The section number is returned as `uint16_t`. -/
def physSectionAdd (d : AddressSpaceDispatch) (mrs : DispatchSection) :
    Checked (Nat × AddressSpaceDispatch) :=
  if d.sections.length < page.size then
    .ok (d.sections.length % 2 ^ 16, { d with sections := d.sections ++ [mrs] })
  else .error .assertion

def physPageSet (d : AddressSpaceDispatch) (index nb leaf : Nat) : Checked AddressSpaceDispatch :=
  let (map, allocHint) := physMapNodeReserve d.map d.allocHint (3 * page.pL2Levels)
  (physPageSetLevel leaf (page.pL2Levels - 1) map d.physMap index nb).bind fun done =>
    .ok { d with map := done.map, physMap := done.lp, allocHint := allocHint }

def rangeCoversByte (offset len byte : Nat) : Bool :=
  decide (offset ≤ byte) && decide (byte ≤ (offset + len + 2 ^ 64 - 1) % 2 ^ 64)

def sectionCoversAddr (mrs : DispatchSection) (addr : Nat) : Bool :=
  decide (mrs.size / 2 ^ 64 ≠ 0) ||
    rangeCoversByte mrs.offsetWithinAddressSpace (mrs.size % 2 ^ 64) addr

def physPageFind (d : AddressSpaceDispatch) (addr : Nat) : Checked Nat :=
  (physPageWalk d.map.nodes (addr / page.size) page.pL2Levels d.physMap).bind fun ptr =>
    (readAt d.sections ptr).bind fun mrs =>
      .ok (if sectionCoversAddr mrs addr then ptr else physSectionUnassigned)

/-! ### Registering -/

/-- `subpage_register`: what lies outside the page is not registered. -/
def subpageRegister (mmio : Subpage) (start stop mrs : Nat) : Subpage :=
  if page.size ≤ start ∨ page.size ≤ stop then mmio
  else { mmio with
    subSection := fun idx => if start ≤ idx ∧ idx ≤ stop then mrs else mmio.subSection idx }

/-- The head of `register_subpage`: the subpage of the page at `base`, made by
`subpage_init` if there is none. -/
def subpageFor (d : AddressSpaceDispatch) (base : Nat) : Checked (Nat × AddressSpaceDispatch) :=
  (physPageFind page d base).bind fun existing =>
    (readAt d.sections existing).bind fun old =>
      match old.mr with
      | .region _ => .error .assertion
      | .subpage index => .ok (index, d)
      | .ioMemUnassigned =>
        let index := d.subpages.length
        (physSectionAdd page { d with subpages := d.subpages ++ [⟨base, fun _ => 0⟩] }
          ⟨.subpage index, 0, base, page.size⟩).bind fun (number, d) =>
            (physPageSet page d (base / page.size) 1 number).bind fun d => .ok (index, d)

def registerSubpage (d : AddressSpaceDispatch) (mrs : DispatchSection) :
    Checked AddressSpaceDispatch :=
  let start := mrs.offsetWithinAddressSpace % page.size
  (subpageFor page d (mrs.offsetWithinAddressSpace - start)).bind fun (index, d) =>
    (int128Get64 mrs.size).bind fun size =>
      (physSectionAdd page d mrs).bind fun (number, d) =>
        .ok { d with subpages := d.subpages.modify index fun mmio =>
          subpageRegister page mmio start ((start + size - 1) % 2 ^ 32) number }

def registerMultipage (d : AddressSpaceDispatch) (mrs : DispatchSection) :
    Checked AddressSpaceDispatch :=
  (physSectionAdd page d mrs).bind fun (number, d) =>
    (int128Get64 (mrs.size / page.size : Nat)).bind fun numPages =>
      if numPages = 0 then .error .assertion
      else physPageSet page d (mrs.offsetWithinAddressSpace / page.size) numPages number

/-- Register the first `size` bytes of `remain`; the rest is returned, if there is any. -/
def registerFront
    (register : AddressSpaceDispatch → DispatchSection → Checked AddressSpaceDispatch)
    (d : AddressSpaceDispatch) (remain : DispatchSection) (size : Nat) :
    Checked (AddressSpaceDispatch × Option DispatchSection) :=
  (register d { remain with size := size }).bind fun d =>
    if remain.size = size then .ok (d, none)
    else
      (int128Get64 size).bind fun done =>
        .ok (d, some { remain with
          size := remain.size - size
          offsetWithinAddressSpace := (remain.offsetWithinAddressSpace + done) % 2 ^ 64
          offsetWithinRegion := (remain.offsetWithinRegion + done) % 2 ^ 64 })

def targetPageAlign (addr : Nat) : Nat :=
  (addr + page.size - 1) / page.size * page.size % 2 ^ 64

/-- The second half of `flatview_add_to_dispatch`: whole pages, then the rest. -/
def addAligned (d : AddressSpaceDispatch) (remain : DispatchSection) :
    Checked AddressSpaceDispatch :=
  (if page.size ≤ remain.size then
    registerFront (registerMultipage page) d remain (remain.size - remain.size % page.size)
  else .ok (d, some remain)).bind fun
    | (d, none) => .ok d
    | (d, some remain) => registerSubpage page d remain

/-- The first half registers what lies before the first page bound. -/
def flatviewAddToDispatch (d : AddressSpaceDispatch) (mrs : DispatchSection) :
    Checked AddressSpaceDispatch :=
  let addr := mrs.offsetWithinAddressSpace
  (if addr % page.size ≠ 0 then
    registerFront (registerSubpage page) d mrs
      (min ((targetPageAlign page addr + 2 ^ 64 - addr) % 2 ^ 64) mrs.size)
  else .ok (d, some mrs)).bind fun
    | (d, none) => .ok d
    | (d, some remain) => addAligned page d remain

/-- `dummy_section` of `io_mem_unassigned`. -/
def unassignedSection : DispatchSection := ⟨.ioMemUnassigned, 0, 0, 2 ^ 64⟩

def addressSpaceDispatchNew (allocHint : Nat) : Checked AddressSpaceDispatch :=
  (physSectionAdd page ⟨none, ⟨1, physMapNodeNil⟩, ⟨[], 0⟩, [], [], allocHint⟩
    unassignedSection).bind fun (number, d) =>
      if number = physSectionUnassigned then .ok d else .error .assertion

def addressSpaceDispatchCompact (d : AddressSpaceDispatch) : Checked AddressSpaceDispatch :=
  if d.physMap.skip ≠ 0 then
    (physPageCompact page.pL2Levels page.pL2Levels d.map.nodes d.physMap).bind fun (nodes, lp) =>
      .ok { d with map := { d.map with nodes := nodes }, physMap := lp }
  else .ok d

def dispatchSection (mrs : MemoryRegionSection) : DispatchSection where
  mr := .region mrs.mr
  offsetWithinRegion := mrs.offsetWithinRegion
  offsetWithinAddressSpace := mrs.offsetWithinAddressSpace
  size := mrs.size

/-- The end of `generate_memory_topology`, before the compaction. -/
def buildDispatch (allocHint : Nat) (view : FlatView) : Checked AddressSpaceDispatch :=
  (addressSpaceDispatchNew page allocHint).bind fun d =>
    view.foldlM (fun d fr => flatviewAddToDispatch page d (dispatchSection (sectionFromFlatRange fr))) d

/-! ### Looking up -/

/-- `mru_section`, if it is good for `addr`. -/
def mruCovers (d : AddressSpaceDispatch) (addr : Nat) : Checked (Option Nat) :=
  match d.mruSection with
  | none => .ok none
  | some number =>
    if number = physSectionUnassigned then .ok none
    else
      (readAt d.sections number).bind fun mrs =>
        .ok (if sectionCoversAddr mrs addr then some number else none)

/-- The section that covers `addr` before subpages are resolved, and the dispatch with
its new `mru_section`. -/
def currentSection (d : AddressSpaceDispatch) (addr : Nat) : Checked (Nat × AddressSpaceDispatch) :=
  (mruCovers d addr).bind fun
    | some number => .ok (number, d)
    | none => (physPageFind page d addr).bind fun number =>
      .ok (number, { d with mruSection := some number })

/-- The number of the section found, and the dispatch. -/
def addressSpaceLookupRegion (d : AddressSpaceDispatch) (addr : Nat) (resolveSubpage : Bool) :
    Checked (Nat × AddressSpaceDispatch) :=
  (currentSection page d addr).bind fun (number, d) =>
    (readAt d.sections number).bind fun mrs =>
      match resolveSubpage, mrs.mr with
      | true, .subpage index =>
        (readAt d.subpages index).bind fun subpage =>
          .ok (subpage.subSection (addr % page.size), d)
      | _, _ => .ok (number, d)

end QemuGzvm.Physmem
