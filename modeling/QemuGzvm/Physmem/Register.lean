import QemuGzvm.Physmem.Sections

/-!
Contract: registering the pieces of flat ranges.

Owns:
- `Dispatched`, the invariant of a dispatch while it is built;
- what `register_subpage` and `register_multipage` do to it, and runs over lists of pieces.

Disjoint pieces never meet: a page with a subpage is not covered whole, and a page
covered whole has no subpage, so that the assertion of `register_subpage` holds and
`phys_page_set` finds its pages unset.
-/

namespace QemuGzvm.Physmem

open QemuGzvm.Library QemuGzvm.Memory

variable (page : TargetPage)

/-- A walk that ends at another page's section is found out by that section's bounds. -/
theorem physPageFind_spec {d : AddressSpaceDispatch} {sectionOf : Nat → Nat}
    {pieces : List DispatchSection} {withSubpage : List Nat} (reads : ReadsAs page d sectionOf)
    (inv : Sections page d.sections d.subpages sectionOf pieces withSubpage) {addr : Nat}
    (low : addr < 2 ^ 64) : physPageFind page d addr = .ok (sectionOf (addr / page.size)) := by
  obtain ⟨found, walked, isFound⟩ := reads (addr / page.size) (page.div_lt_pages low)
  rw [physPageFind, walked, bind_ok]
  have atDummy : ∀ mrs, (if sectionCoversAddr mrs addr then physSectionUnassigned
      else physSectionUnassigned) = physSectionUnassigned := fun mrs => ite_self _
  rcases isFound with rfl | ⟨unset, other, rfl⟩
  · by_cases unset : sectionOf (addr / page.size) = physSectionUnassigned
    · rw [unset, readAt_of_getElem? inv.dummy, bind_ok, atDummy]
    · obtain ⟨mrs, stored, _, covers⟩ := inv.covers _ unset
      rw [readAt_of_getElem? stored, bind_ok, if_pos ((covers addr low).mpr rfl)]
  · by_cases unset' : sectionOf other = physSectionUnassigned
    · rw [unset', unset, readAt_of_getElem? inv.dummy, bind_ok, atDummy]
    · obtain ⟨mrs, stored, _, covers⟩ := inv.covers other unset'
      have notCovers : ¬sectionCoversAddr mrs addr = true := by
        rw [covers addr low, unset]
        exact Ne.symm unset'
      rw [readAt_of_getElem? stored, bind_ok, if_neg notCovers, unset]

theorem physSectionAdd_spec {d : AddressSpaceDispatch} (mrs : DispatchSection)
    (room : d.sections.length < page.size) :
    physSectionAdd page d mrs =
      .ok (d.sections.length, { d with sections := d.sections ++ [mrs] }) := by
  have := page.size_le
  rw [physSectionAdd, if_pos room, Nat.mod_eq_of_lt (by omega)]

/-- A dispatch that is being built from `pieces`; `withSubpage` are the pages that have a
subpage. -/
structure Dispatched (d : AddressSpaceDispatch) (sectionOf : Nat → Nat)
    (pieces : List DispatchSection) (withSubpage : List Nat) : Prop where
  table : PageTable page d sectionOf
  sections : Sections page d.sections d.subpages sectionOf pieces withSubpage
  nodes : d.map.nodes.length ≤ nodesPerSet * d.sections.length
  recent : d.mruSection = none

/-- The node numbers are far from `PHYS_MAP_NODE_NIL`. -/
theorem nodes_small {nodes sections : Nat} (nodesBound : nodes ≤ nodesPerSet * sections)
    (few : sections ≤ page.size) : nodes + nodesPerSet ≤ physMapNodeNil := by
  have := page.size_le
  unfold nodesPerSet at *
  unfold physMapNodeNil
  omega

variable {page} {d : AddressSpaceDispatch} {sectionOf : Nat → Nat}
  {pieces : List DispatchSection} {withSubpage : List Nat}

section

variable (inv : Dispatched page d sectionOf pieces withSubpage)
include inv

theorem Dispatched.find (few : d.sections.length ≤ page.size) {addr : Nat} (low : addr < 2 ^ 64) :
    physPageFind page d addr = .ok (sectionOf (addr / page.size)) := by
  have := nodes_small page inv.nodes few
  exact physPageFind_spec page (inv.table.readsAs page (by omega)) inv.sections low

theorem Dispatched.isLeaf (room : d.sections.length < page.size) :
    0 < d.sections.length ∧ d.sections.length < physMapNodeNil := by
  have some := inv.sections.present 0
  have few := page.size_le
  unfold physMapNodeNil
  omega

/-- A run of pages that are not set gets a new section. -/
theorem Dispatched.setPages (room : d.sections.length < page.size) {mrs : DispatchSection}
    {subpages : List Subpage} {index nb : Nat} {pieces' : List DispatchSection}
    {withSubpage' : List Nat} (some : 0 < nb) (inside : index + nb ≤ page.pages)
    (free : ∀ x, index ≤ x → x < index + nb → sectionOf x = physSectionUnassigned)
    (sections : Sections page (d.sections ++ [mrs]) subpages
      (fun x => if index ≤ x ∧ x < index + nb then d.sections.length else sectionOf x) pieces'
      withSubpage') :
    ∃ d' sectionOf', physPageSet page { d with sections := d.sections ++ [mrs], subpages } index nb
        d.sections.length = .ok d' ∧ Dispatched page d' sectionOf' pieces' withSubpage' ∧
      d'.sections = d.sections ++ [mrs] ∧ d'.subpages = subpages ∧
      sectionOf' index = d.sections.length := by
  have table : PageTable page { d with sections := d.sections ++ [mrs], subpages } sectionOf :=
    ⟨inv.table.tree, inv.table.plain, inv.table.walk⟩
  obtain ⟨d', set, isSections, isSubpages, recent, few, table'⟩ := physPageSet_spec page table
    (inv.isLeaf room) some inside (nodes_small page inv.nodes (Nat.le_of_lt room)) free
  refine ⟨d', _, set, ⟨table', ?_, ?_, recent.trans inv.recent⟩, isSections, isSubpages, ?_⟩
  · rw [isSections, isSubpages]
    exact sections
  · have := inv.nodes
    rw [isSections, List.length_append, List.length_singleton, Nat.mul_add]
    dsimp only at few
    omega
  · exact if_pos ⟨Nat.le_refl _, Nat.lt_add_of_pos_right some⟩

/-- The sections that a piece of a page takes, apart from its own. -/
def subpageCost (withSubpage : List Nat) (index : Nat) : Nat :=
  if index ∈ withSubpage then 0 else 1

def withPage (withSubpage : List Nat) (index : Nat) : List Nat :=
  if index ∈ withSubpage then withSubpage else index :: withSubpage

/-- A page that is not covered whole gets a subpage. -/
theorem subpageFor_spec {index : Nat}
    (inside : index < page.pages)
    (notRegion : ∀ mrs, d.sections[sectionOf index]? = some mrs → ∀ mr, mrs.mr ≠ .region mr)
    (room : d.sections.length + subpageCost withSubpage index ≤ page.size) :
    ∃ number d' sectionOf' mrs subpage,
      subpageFor page d (index * page.size) = .ok (number, d') ∧
      Dispatched page d' sectionOf' pieces (withPage withSubpage index) ∧
      d'.sections.length = d.sections.length + subpageCost withSubpage index ∧
      d'.sections[sectionOf' index]? = some mrs ∧ mrs.mr = .subpage number ∧
      d'.subpages[number]? = some subpage := by
  have onPage : index * page.size / page.size = index := Nat.mul_div_cancel _ page.size_pos
  have found := inv.find (Nat.le_of_add_right_le room) (page.mul_size_lt inside)
  rw [onPage] at found
  unfold subpageFor subpageCost withPage at *
  rw [found, bind_ok]
  by_cases unset : sectionOf index = physSectionUnassigned
  · have absent : index ∉ withSubpage := by
      rw [inv.sections.subpaged, unset, inv.sections.dummy]
      rintro ⟨mrs, number, stored, isMr⟩
      cases stored
      cases isMr
    rw [if_neg absent] at room ⊢
    rw [unset, readAt_of_getElem? inv.sections.dummy, bind_ok]
    obtain ⟨d', sectionOf', set, inv', sections, subpages, isNew⟩ := inv.setPages room Nat.one_pos
      inside (fun x low high => by rw [show x = index by omega, unset])
      (inv.sections.add_subpage unset inside)
    refine ⟨d.subpages.length, d', sectionOf',
      ⟨.subpage d.subpages.length, 0, index * page.size, page.size⟩,
      ⟨index * page.size, fun _ => 0⟩, ?_, inv', ?_, ?_, rfl, ?_⟩
    · have added := physSectionAdd_spec page
        (d := { d with subpages := d.subpages ++ [⟨index * page.size, fun _ => 0⟩] })
        ⟨.subpage d.subpages.length, 0, index * page.size, page.size⟩ room
      change (physSectionAdd page _ _).bind _ = _
      rw [added, bind_ok]
      dsimp only
      rw [onPage, set, bind_ok]
    · rw [sections, List.length_append, List.length_singleton, if_neg absent]
    · rw [isNew, sections]
      exact List.getElem?_concat_length
    · rw [subpages]
      exact List.getElem?_concat_length
  · obtain ⟨mrs, stored, kind, _⟩ := inv.sections.covers index unset
    cases kind with
    | region mr isMr => exact (notRegion mrs stored mr isMr).elim
    | subpage number subpage isMr subpageStored _ =>
      have present : index ∈ withSubpage :=
        (inv.sections.subpaged index).mpr ⟨mrs, number, stored, isMr⟩
      rw [if_pos present, if_pos present, readAt_of_getElem? stored, bind_ok, isMr]
      exact ⟨number, d, sectionOf, mrs, subpage, rfl, inv, rfl, stored, isMr, subpageStored⟩

/-! ### Pieces -/

structure Piece where
  whole : Bool
  mrs : DispatchSection
deriving DecidableEq, Repr

variable (page) in
def registerPiece (d : AddressSpaceDispatch) (piece : Piece) : Checked AddressSpaceDispatch :=
  if piece.whole then registerMultipage page d piece.mrs else registerSubpage page d piece.mrs

variable (page) in
/-- A piece lies in one page or consists of whole pages. -/
structure Piece.Valid (piece : Piece) : Prop where
  region : ∃ mr, piece.mrs.mr = .region mr
  some : 0 < piece.mrs.size
  inside : piece.mrs.offsetWithinAddressSpace + piece.mrs.size ≤ 2 ^ 64
  shape : if piece.whole then
      piece.mrs.offsetWithinAddressSpace % page.size = 0 ∧ piece.mrs.size % page.size = 0
    else piece.mrs.offsetWithinAddressSpace % page.size + piece.mrs.size ≤ page.size

variable (page) in
def Piece.index (piece : Piece) : Nat := piece.mrs.offsetWithinAddressSpace / page.size

variable (page) in
/-- The pages with a subpage after `piece`. -/
def Piece.subpaged (piece : Piece) (withSubpage : List Nat) : List Nat :=
  if piece.whole then withSubpage else withPage withSubpage (piece.index page)

variable (page) in
/-- The sections a piece takes: its own, and that of a new subpage. -/
def Piece.cost (piece : Piece) (withSubpage : List Nat) : Nat :=
  if piece.whole then 1 else subpageCost withSubpage (piece.index page) + 1

/-- Every page with a subpage is covered in part. -/
def Used (page : TargetPage) (pieces : List DispatchSection) (withSubpage : List Nat) : Prop :=
  ∀ index ∈ withSubpage, ∃ piece ∈ pieces, ∃ addr, piece.Covers addr ∧ addr / page.size = index

theorem registerSubpage_spec {mrs : DispatchSection} (valid : Piece.Valid page ⟨false, mrs⟩)
    (apart : ∀ other ∈ pieces, ∀ addr, other.Covers addr → ¬mrs.Covers addr)
    (room : d.sections.length + Piece.cost page ⟨false, mrs⟩ withSubpage ≤ page.size) :
    ∃ d' sectionOf', registerSubpage page d mrs = .ok d' ∧
      Dispatched page d' sectionOf' (mrs :: pieces) (Piece.subpaged page ⟨false, mrs⟩ withSubpage) := by
  obtain ⟨isRegion, some, inside, inPage⟩ := valid
  dsimp only at isRegion some inside
  have inPage : mrs.offsetWithinAddressSpace % page.size + mrs.size ≤ page.size := inPage
  have room : d.sections.length +
    (subpageCost withSubpage (mrs.offsetWithinAddressSpace / page.size) + 1) ≤ page.size := room
  have low : mrs.offsetWithinAddressSpace < 2 ^ 64 := by omega
  have start := Nat.div_add_mod' mrs.offsetWithinAddressSpace page.size
  have sizeBound := page.size_le
  have uncovered : ∀ other ∈ pieces, ¬other.Covers mrs.offsetWithinAddressSpace := by
    intro other member covered
    refine apart other member _ covered ⟨Nat.le_refl _, ?_⟩
    omega
  obtain ⟨number, d', sectionOf', entry, subpage, ran, inv', length, stored, isMr, found⟩ :=
    subpageFor_spec inv (page.div_lt_pages low)
      (fun other stored => inv.sections.not_region low uncovered stored) (by omega)
  have base : mrs.offsetWithinAddressSpace - mrs.offsetWithinAddressSpace % page.size =
      mrs.offsetWithinAddressSpace / page.size * page.size := by omega
  have last : (mrs.offsetWithinAddressSpace % page.size + mrs.size - 1) % 2 ^ 32 =
      mrs.offsetWithinAddressSpace % page.size + mrs.size - 1 := Nat.mod_eq_of_lt (by omega)
  refine ⟨{ d' with
      sections := d'.sections ++ [mrs]
      subpages := d'.subpages.modify number fun mmio => subpageRegister page mmio
        (mrs.offsetWithinAddressSpace % page.size)
        (mrs.offsetWithinAddressSpace % page.size + mrs.size - 1) d'.sections.length },
    sectionOf', ?_, ⟨⟨inv'.table.tree, inv'.table.plain, inv'.table.walk⟩,
    inv'.sections.add_part stored isMr found isRegion some rfl inPage apart, ?_, inv'.recent⟩⟩
  · grind [registerSubpage, bind_ok, int128Get64_natCast, physSectionAdd_spec]
  · have := inv'.nodes
    dsimp only
    rw [List.length_append, List.length_singleton, Nat.mul_add]
    omega

theorem Dispatched.free (used : Used page pieces withSubpage) {mrs : DispatchSection}
    (apart : ∀ other ∈ pieces, ∀ addr, other.Covers addr → ¬mrs.Covers addr) {index : Nat}
    (inside : index < page.pages)
    (covered : ∀ addr, addr / page.size = index → mrs.Covers addr) :
    sectionOf index = physSectionUnassigned := by
  by_contra isSet
  obtain ⟨entry, stored, kind, _⟩ := inv.sections.covers index isSet
  cases kind with
  | region mr isMr =>
    have onPage : index * page.size / page.size = index := Nat.mul_div_cancel _ page.size_pos
    refine inv.sections.not_region (page.mul_size_lt inside) (fun other member covers => ?_)
      (by rw [onPage]; exact stored) mr isMr
    exact apart other member _ covers (covered _ onPage)
  | subpage number subpage isMr _ _ =>
    obtain ⟨other, member, addr, covers, onPage⟩ :=
      used index ((inv.sections.subpaged index).mpr ⟨entry, number, stored, isMr⟩)
    exact apart other member addr covers (covered addr onPage)

theorem registerMultipage_spec (used : Used page pieces withSubpage) {mrs : DispatchSection}
    (valid : Piece.Valid page ⟨true, mrs⟩)
    (apart : ∀ other ∈ pieces, ∀ addr, other.Covers addr → ¬mrs.Covers addr)
    (room : d.sections.length < page.size) :
    ∃ d' sectionOf', registerMultipage page d mrs = .ok d' ∧
      Dispatched page d' sectionOf' (mrs :: pieces) withSubpage := by
  obtain ⟨isRegion, some, inside, alignedStart, alignedSize⟩ := valid
  obtain ⟨index, isIndex⟩ : ∃ index, index = mrs.offsetWithinAddressSpace / page.size := ⟨_, rfl⟩
  obtain ⟨nb, isNb⟩ : ∃ nb, nb = mrs.size / page.size := ⟨_, rfl⟩
  have isStart : mrs.offsetWithinAddressSpace = index * page.size := by
    rw [isIndex, Nat.div_mul_cancel (Nat.dvd_of_mod_eq_zero alignedStart)]
  have isSize : mrs.size = nb * page.size := by
    rw [isNb, Nat.div_mul_cancel (Nat.dvd_of_mod_eq_zero alignedSize)]
  have positive : 0 < nb := by
    grind
  have within : index + nb ≤ page.pages := by
    rw [isStart, isSize, ← Nat.add_mul, ← page.pages_mul_size] at inside
    exact Nat.le_of_mul_le_mul_right inside page.size_pos
  have free : ∀ x, index ≤ x → x < index + nb → sectionOf x = physSectionUnassigned := by
    intro x after before
    refine inv.free used apart (Nat.lt_of_lt_of_le before within) fun addr onPage => ?_
    rw [← onPage] at after before
    rw [DispatchSection.Covers, isStart, isSize, ← Nat.add_mul]
    exact ⟨(Nat.le_div_iff_mul_le page.size_pos).mp after,
      (Nat.div_lt_iff_lt_mul page.size_pos).mp before⟩
  obtain ⟨d', sectionOf', set, inv', -⟩ := inv.setPages room positive within free
    (inv.sections.add_whole isRegion isStart isSize positive within free apart)
  refine ⟨d', sectionOf', ?_, inv'⟩
  have nbBound : nb < 2 ^ 64 := by
    have := page.pages_lt
    omega
  rw [registerMultipage, physSectionAdd_spec page mrs room, bind_ok]
  dsimp only
  rw [← isNb, int128Get64_natCast nbBound, bind_ok, if_neg (Nat.ne_of_gt positive), ← isIndex, set]

end

theorem length_withPage (withSubpage : List Nat) (index : Nat) :
    (withPage withSubpage index).length = withSubpage.length + subpageCost withSubpage index := by
  unfold withPage subpageCost
  split
  · rfl
  · rfl

theorem registerPiece_spec (inv : Dispatched page d sectionOf pieces withSubpage)
    (used : Used page pieces withSubpage) {piece : Piece} (valid : piece.Valid page)
    (apart : ∀ other ∈ pieces, ∀ addr, other.Covers addr → ¬piece.mrs.Covers addr)
    (room : d.sections.length + piece.cost page withSubpage ≤ page.size) :
    ∃ d' sectionOf', registerPiece page d piece = .ok d' ∧
      Dispatched page d' sectionOf' (piece.mrs :: pieces) (piece.subpaged page withSubpage) ∧
      Used page (piece.mrs :: pieces) (piece.subpaged page withSubpage) ∧
      d'.sections.length = d.sections.length + piece.cost page withSubpage := by
  have olderUsed : Used page (piece.mrs :: pieces) withSubpage := by
    intro index member
    obtain ⟨other, isPiece, rest⟩ := used index member
    exact ⟨other, List.mem_cons_of_mem _ isPiece, rest⟩
  obtain ⟨whole, mrs⟩ := piece
  cases whole with
  | true =>
    obtain ⟨d', sectionOf', ran, inv'⟩ := registerMultipage_spec inv used valid apart room
    refine ⟨d', sectionOf', ran, inv', olderUsed, ?_⟩
    have := inv.sections.count
    have := inv'.sections.count
    rw [List.length_cons] at this
    rw [Piece.cost, if_pos rfl]
    omega
  | false =>
    obtain ⟨d', sectionOf', ran, inv'⟩ := registerSubpage_spec inv valid apart room
    refine ⟨d', sectionOf', ran, inv', ?_, ?_⟩
    · intro index member
      have member : index ∈ withPage withSubpage (mrs.offsetWithinAddressSpace / page.size) := member
      have covered : mrs.Covers mrs.offsetWithinAddressSpace :=
        ⟨Nat.le_refl _, Nat.lt_add_of_pos_right valid.some⟩
      unfold withPage at member
      split at member
      · exact olderUsed index member
      · rcases List.mem_cons.mp member with rfl | member
        · exact ⟨mrs, List.mem_cons_self, _, covered, rfl⟩
        · exact olderUsed index member
    · have before := inv.sections.count
      have after := inv'.sections.count
      rw [List.length_cons, Piece.subpaged, if_neg Bool.false_ne_true, length_withPage] at after
      rw [Piece.cost, if_neg Bool.false_ne_true]
      omega

variable (page) in
def piecesCost : List Nat → List Piece → Nat
  | _, [] => 0
  | withSubpage, piece :: rest =>
    piece.cost page withSubpage + piecesCost (piece.subpaged page withSubpage) rest

def Apart (one other : Piece) : Prop := ∀ addr, one.mrs.Covers addr → ¬other.mrs.Covers addr

/-- A run of registrations. The induction is on the pieces that are left; those already
registered are disjoint from them. -/
theorem registerPieces_spec (inv : Dispatched page d sectionOf pieces withSubpage)
    (used : Used page pieces withSubpage) (todo : List Piece)
    (valid : ∀ piece ∈ todo, piece.Valid page) (disjoint : todo.Pairwise Apart)
    (apart : ∀ piece ∈ todo, ∀ other ∈ pieces, ∀ addr, other.Covers addr → ¬piece.mrs.Covers addr)
    (room : d.sections.length + piecesCost page withSubpage todo ≤ page.size) :
    ∃ d' sectionOf' pieces' withSubpage', todo.foldlM (registerPiece page) d = .ok d' ∧
      Dispatched page d' sectionOf' pieces' withSubpage' ∧
      (∀ mrs, mrs ∈ pieces' ↔ (∃ piece ∈ todo, piece.mrs = mrs) ∨ mrs ∈ pieces) ∧
      d'.sections.length = d.sections.length + piecesCost page withSubpage todo := by
  induction todo generalizing d sectionOf pieces withSubpage with
  | nil => exact ⟨d, sectionOf, pieces, withSubpage, rfl, inv, by simp, rfl⟩
  | cons piece rest ih =>
    rw [piecesCost] at room ⊢
    obtain ⟨first, later⟩ := List.pairwise_cons.mp disjoint
    obtain ⟨next, sectionOf', ran, inv', used', length⟩ := registerPiece_spec inv used
      (valid piece List.mem_cons_self) (apart piece List.mem_cons_self) (by omega)
    obtain ⟨d', sectionOf'', pieces', withSubpage', ran', inv'', members, length'⟩ :=
      ih inv' used' (fun other member => valid other (List.mem_cons_of_mem _ member))
        later (fun other member older isOlder addr covered => by
          rcases List.mem_cons.mp isOlder with rfl | isOlder
          · exact first other member addr covered
          · exact apart other (List.mem_cons_of_mem _ member) older isOlder addr covered)
        (by omega)
    refine ⟨d', sectionOf'', pieces', withSubpage', ?_, inv'', fun mrs => ?_, by omega⟩
    · rw [List.foldlM_cons, ran]
      exact ran'
    · grind

end QemuGzvm.Physmem
