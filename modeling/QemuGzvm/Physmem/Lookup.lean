import QemuGzvm.Memory.FlatviewRoot
import QemuGzvm.Physmem.Pieces

/-!
Contract: lookups in the dispatch of a flat view against the view.

Owns:
- the sections a view takes and the dispatch built from it;
- lookups, from every `mru_section` that earlier lookups leave;
- the agreement of lookups with the view, before and after the compaction;
- that of `generate_memory_topology` with priority resolution.
-/

namespace QemuGzvm.Physmem

open QemuGzvm.Library QemuGzvm.Memory

/-! ### The dispatch of a view -/

def rangeSection (fr : FlatRange) : DispatchSection := dispatchSection (sectionFromFlatRange fr)

variable {fr : FlatRange} {view : FlatView} {addr : Nat}

theorem rangeSection_covers (ordered : Ordered view) (member : fr ∈ view) (addr : Nat) :
    (rangeSection fr).Covers addr ↔ fr.addr.start ≤ addr ∧ (addr : Int) < addrrangeEnd fr.addr := by
  have start := ordered.section_start member
  have size := ordered.section_size member
  unfold DispatchSection.Covers rangeSection dispatchSection addrrangeEnd
  dsimp only
  omega

variable (page : TargetPage)

def viewPieces (view : FlatView) : List Piece :=
  view.flatMap fun fr => piecesOf page (rangeSection fr)

/-- The sections that building the dispatch of a view takes: the unassigned section, one
for each piece, and one for each page that gets a subpage. -/
def sectionsProduced (view : FlatView) : Nat := 1 + piecesCost page [] (viewPieces page view)

variable {page}

variable (page) in
theorem rangeSection_tile (ordered : Ordered view) (member : fr ∈ view) :
    Tiles page (rangeSection fr) (piecesOf page (rangeSection fr)) := by
  refine piecesOf_tile ⟨fr.mr, rfl⟩ ?_
  have start := ordered.section_start member
  have size := ordered.section_size member
  have high := ordered.high fr member
  unfold addrrangeEnd at high
  unfold rangeSection dispatchSection
  dsimp only
  omega

/-- A slice covers only what its section covers. -/
theorem Tiles.covers {mrs : DispatchSection} {tiles : List Piece} (tile : Tiles page mrs tiles)
    {piece : Piece} (member : piece ∈ tiles) (covered : piece.mrs.Covers addr) :
    mrs.Covers addr := by
  obtain ⟨offset, size, isSlice, fits⟩ := tile.slices piece member
  rw [isSlice] at covered
  obtain ⟨after, before⟩ := covered
  have after : mrs.offsetWithinAddressSpace + offset ≤ addr := after
  have before : addr < mrs.offsetWithinAddressSpace + offset + size := before
  unfold DispatchSection.Covers
  omega

theorem viewPieces_valid (ordered : Ordered view) :
    ∀ piece ∈ viewPieces page view, piece.Valid page := by
  intro piece member
  obtain ⟨fr, inView, isPiece⟩ := List.mem_flatMap.mp member
  exact (rangeSection_tile page ordered inView).valid piece isPiece

theorem viewPieces_disjoint (ordered : Ordered view) :
    (viewPieces page view).Pairwise Apart := by
  rw [viewPieces, List.pairwise_flatMap]
  refine ⟨fun fr member => (rangeSection_tile page ordered member).disjoint, ?_⟩
  have apart := List.Pairwise.and_mem.mp ordered.apart
  refine apart.imp ?_
  rintro one other ⟨oneIn, otherIn, before⟩ piece isPiece piece' isPiece' addr covered covered'
  have here := (rangeSection_covers ordered oneIn addr).mp
    ((rangeSection_tile page ordered oneIn).covers isPiece covered)
  have there := (rangeSection_covers ordered otherIn addr).mp
    ((rangeSection_tile page ordered otherIn).covers isPiece' covered')
  omega

theorem foldlM_of_pieces (ordered : Ordered view) {d d' : AddressSpaceDispatch}
    (ran : (viewPieces page view).foldlM (registerPiece page) d = .ok d') :
    view.foldlM (fun d fr => flatviewAddToDispatch page d
      (dispatchSection (sectionFromFlatRange fr))) d = .ok d' := by
  induction view generalizing d with
  | nil => exact ran
  | cons fr rest ih =>
    rw [viewPieces, List.flatMap_cons, List.foldlM_append] at ran
    cases first : (piecesOf page (rangeSection fr)).foldlM (registerPiece page) d with
    | error fault =>
      rw [first] at ran
      cases ran
    | ok next =>
      rw [first] at ran
      have start := ordered.section_start List.mem_cons_self
      have size := ordered.section_size List.mem_cons_self
      have some := ordered.nonempty fr List.mem_cons_self
      have high := ordered.high fr List.mem_cons_self
      unfold addrrangeEnd at high
      have added : flatviewAddToDispatch page d (rangeSection fr) = .ok next := by
        grind [rangeSection, dispatchSection, flatviewAddToDispatch_of_pieces]
      rw [List.foldlM_cons, ← rangeSection, added]
      exact ih ordered.tail ran

variable (page) in
theorem addressSpaceDispatchNew_spec (allocHint : Nat) :
    ∃ d, addressSpaceDispatchNew page allocHint = .ok d ∧
      Dispatched page d (fun _ => physSectionUnassigned) [] [] ∧ d.sections.length = 1 := by
  have isSlot : (PhysPageEntry.mk 1 physMapNodeNil).slot = .empty := slot_eq_empty.mpr ⟨rfl, rfl⟩
  have positive : 0 < page.pL2Levels := by rw [page.pL2Levels_eq]; decide
  refine ⟨⟨none, ⟨1, physMapNodeNil⟩, ⟨[], 0⟩, [unassignedSection], [], allocHint⟩, ?_, ?_, rfl⟩
  · have room : ([] : List DispatchSection).length < page.size := page.size_pos
    unfold addressSpaceDispatchNew physSectionAdd
    rw [if_pos room]
    rfl
  · refine ⟨⟨⟨fun _ => ⟨0, 0⟩, ⟨nofun, nofun⟩, ?_⟩, ?_, fun index _ => ?_⟩,
      ⟨rfl, rfl, nofun, fun _ isSet => (isSet rfl).elim, fun addr _ number resolved => ?_,
        fun index => ?_⟩, Nat.zero_le _, rfl⟩
    · rw [isSlot]
      exact positive
    · rw [isSlot]
      exact ⟨fun _ _ => nofun, fun _ => nofun, nofun⟩
    · rw [isSlot]
      exact .empty positive
    · refine ⟨nofun, fun _ => ?_⟩
      cases resolved with
      | plain => rfl
      | subpage stored isMr =>
        cases stored
        cases isMr
    · constructor
      · nofun
      · rintro ⟨mrs, number, stored, isMr⟩
        cases stored
        cases isMr

variable (page) in
theorem buildDispatch_spec (allocHint : Nat) (ordered : Ordered view)
    (few : sectionsProduced page view ≤ page.size) :
    ∃ d sectionOf pieces withSubpage, buildDispatch page allocHint view = .ok d ∧
      Dispatched page d sectionOf pieces withSubpage ∧
      (∀ mrs, mrs ∈ pieces ↔ ∃ piece ∈ viewPieces page view, piece.mrs = mrs) ∧
      d.sections.length = sectionsProduced page view := by
  obtain ⟨start, made, inv, length⟩ := addressSpaceDispatchNew_spec page allocHint
  obtain ⟨d, sectionOf, pieces, withSubpage, ran, inv', members, length'⟩ :=
    registerPieces_spec inv (by nofun) (viewPieces page view) (viewPieces_valid ordered)
      (viewPieces_disjoint ordered) (by nofun) (by rw [length]; exact few)
  refine ⟨d, sectionOf, pieces, withSubpage, ?_, inv', fun mrs => ?_, ?_⟩
  · rw [buildDispatch, made, bind_ok]
    exact foldlM_of_pieces ordered ran
  · rw [members mrs]
    exact ⟨fun member => member.resolve_right (by nofun), Or.inl⟩
  · rw [length', length, sectionsProduced]

/-! ### Lookups -/

/-- A dispatch that lookups read: the tree, the arrays, and a `mru_section` that an
earlier lookup has left. -/
structure Readable (page : TargetPage) (d : AddressSpaceDispatch) (sectionOf : Nat → Nat)
    (pieces : List DispatchSection) (withSubpage : List Nat) : Prop where
  reads : ReadsAs page d sectionOf
  sections : Sections page d.sections d.subpages sectionOf pieces withSubpage
  recent : ∀ number, d.mruSection = some number → ∃ index, number = sectionOf index

variable {d : AddressSpaceDispatch} {sectionOf : Nat → Nat} {pieces : List DispatchSection}
  {withSubpage : List Nat}

section

variable (inv : Readable page d sectionOf pieces withSubpage)
include inv

/-- Whether `mru_section` is used or not, the section of the page is found. -/
theorem currentSection_spec (low : addr < 2 ^ 64) :
    ∃ d', currentSection page d addr = .ok (sectionOf (addr / page.size), d') ∧
      d'.sections = d.sections ∧ d'.subpages = d.subpages ∧
      Readable page d' sectionOf pieces withSubpage := by
  have find := physPageFind_spec page inv.reads inv.sections low
  have miss : mruCovers d addr = .ok none → ∃ d',
      currentSection page d addr = .ok (sectionOf (addr / page.size), d') ∧
      d'.sections = d.sections ∧ d'.subpages = d.subpages ∧
      Readable page d' sectionOf pieces withSubpage := by
    intro missed
    refine ⟨{ d with mruSection := some (sectionOf (addr / page.size)) }, ?_, rfl, rfl, inv.reads,
      inv.sections, fun number isRecent => ⟨addr / page.size, (Option.some.inj isRecent).symm⟩⟩
    rw [currentSection, missed, bind_ok]
    rw [find, bind_ok]
  cases isRecent : d.mruSection with
  | none => exact miss (by rw [mruCovers, isRecent])
  | some number =>
    obtain ⟨index, isSection⟩ := inv.recent number isRecent
    by_cases unset : number = physSectionUnassigned
    · apply miss
      rw [mruCovers, isRecent]
      exact if_pos unset
    · obtain ⟨mrs, stored, _, covers⟩ := inv.sections.covers index (isSection ▸ unset)
      rw [← isSection] at stored
      have tested : mruCovers d addr =
          .ok (if sectionCoversAddr mrs addr then some number else none) := by
        rw [mruCovers, isRecent]
        dsimp only
        rw [if_neg unset, readAt_of_getElem? stored, bind_ok]
      by_cases hit : sectionCoversAddr mrs addr = true
      · grind [currentSection, bind_ok]
      · rw [if_neg hit] at tested
        exact miss tested

theorem addressSpaceLookupRegion_spec (low : addr < 2 ^ 64) (resolveSubpage : Bool) :
    ∃ number d', addressSpaceLookupRegion page d addr resolveSubpage = .ok (number, d') ∧
      d'.sections = d.sections ∧ Readable page d' sectionOf pieces withSubpage ∧
      (resolveSubpage = true → Resolves page d.sections d.subpages sectionOf addr number) := by
  obtain ⟨d', ran, sections, subpages, inv'⟩ := currentSection_spec inv low
  obtain ⟨mrs, stored⟩ : ∃ mrs, d.sections[sectionOf (addr / page.size)]? = some mrs :=
    ⟨_, List.getElem?_eq_getElem (inv.sections.present _)⟩
  unfold addressSpaceLookupRegion
  rw [ran, bind_ok]
  dsimp only
  rw [sections, readAt_of_getElem? stored, bind_ok]
  cases resolveSubpage with
  | false => exact ⟨_, d', rfl, sections, inv', nofun⟩
  | true =>
    cases isMr : mrs.mr with
    | ioMemUnassigned =>
      refine ⟨_, d', rfl, sections, inv', fun _ => .plain stored fun number isSubpage => ?_⟩
      rw [isMr] at isSubpage
      cases isSubpage
    | region mr =>
      refine ⟨_, d', rfl, sections, inv', fun _ => .plain stored fun number isSubpage => ?_⟩
      rw [isMr] at isSubpage
      cases isSubpage
    | subpage index =>
      obtain ⟨subpage, found, _⟩ := inv.sections.own_subpage stored isMr
      dsimp only
      rw [subpages, readAt_of_getElem? found, bind_ok]
      exact ⟨_, d', rfl, sections, inv', fun _ => .subpage stored isMr found⟩

variable (page) in
/-- Lookups one after the other. -/
def lookups (d : AddressSpaceDispatch) : List (Nat × Bool) → Checked AddressSpaceDispatch
  | [] => .ok d
  | (addr, resolveSubpage) :: rest =>
    (addressSpaceLookupRegion page d addr resolveSubpage).bind fun (_, d) => lookups d rest

theorem lookups_spec (earlier : List (Nat × Bool)) (low : ∀ query ∈ earlier, query.1 < 2 ^ 64) :
    ∃ d', lookups page d earlier = .ok d' ∧ d'.sections = d.sections ∧
      Readable page d' sectionOf pieces withSubpage := by
  induction earlier generalizing d with
  | nil => exact ⟨d, rfl, rfl, inv⟩
  | cons query rest ih =>
    obtain ⟨addr, resolveSubpage⟩ := query
    obtain ⟨number, next, ran, sections, inv', _⟩ :=
      addressSpaceLookupRegion_spec inv (low _ List.mem_cons_self) resolveSubpage
    obtain ⟨d', ran', sections', inv''⟩ :=
      ih inv' fun other member => low other (List.mem_cons_of_mem _ member)
    refine ⟨d', ?_, sections'.trans sections, inv''⟩
    rw [lookups, ran, bind_ok]
    exact ran'

end

/-! ### Agreement with the view -/

/-- The section found for an address is that of the range that contains it, at the same
place in the region; without a range it is the unassigned section. -/
def AgreesWith (view : FlatView) (addr number : Nat) (mrs : DispatchSection) : Prop :=
  match lookup view addr with
  | some fr => mrs.mr = .region fr.mr ∧
      ((mrs.offsetWithinRegion : Int) + (addr - mrs.offsetWithinAddressSpace)) % 2 ^ 64 =
        ((fr.offsetInRegion : Int) + (addr - fr.addr.start)) % 2 ^ 64
  | none => number = physSectionUnassigned ∧ mrs = unassignedSection

theorem sliceOf_place (mrs : DispatchSection) (offset size addr : Nat) :
    (((sliceOf mrs offset size).offsetWithinRegion : Int) +
      (addr - (sliceOf mrs offset size).offsetWithinAddressSpace)) % 2 ^ 64 =
    ((mrs.offsetWithinRegion : Int) + (addr - mrs.offsetWithinAddressSpace)) % 2 ^ 64 := by
  unfold sliceOf
  dsimp only
  split
  · omega
  · omega

theorem agrees_of_answers (ordered : Ordered view) {sections : List DispatchSection}
    (dummy : sections[physSectionUnassigned]? = some unassignedSection)
    (members : ∀ mrs, mrs ∈ pieces ↔ ∃ piece ∈ viewPieces page view, piece.mrs = mrs) {number : Nat}
    (answers : Answers sections pieces addr number) :
    ∃ mrs, sections[number]? = some mrs ∧ AgreesWith view addr number mrs := by
  unfold AgreesWith
  cases isRange : lookup view addr with
  | none =>
    have unset : number = physSectionUnassigned := by
      refine answers.2 fun mrs member covered => ?_
      obtain ⟨piece, inPieces, rfl⟩ := (members mrs).mp member
      obtain ⟨fr, inView, isPiece⟩ := List.mem_flatMap.mp inPieces
      have covers := (rangeSection_covers ordered inView addr).mp
        ((rangeSection_tile page ordered inView).covers isPiece covered)
      exact lookup_eq_none.mp isRange fr inView covers
    exact ⟨unassignedSection, unset ▸ dummy, unset, rfl⟩
  | some fr =>
    obtain ⟨inView, covers⟩ := lookup_some isRange
    obtain ⟨piece, isPiece, covered⟩ := (rangeSection_tile page ordered inView).cover addr
      ((rangeSection_covers ordered inView addr).mpr covers)
    have stored := answers.1 piece.mrs
      ((members _).mpr ⟨piece, List.mem_flatMap.mpr ⟨fr, inView, isPiece⟩, rfl⟩) covered
    obtain ⟨offset, size, isSlice, _⟩ := (rangeSection_tile page ordered inView).slices piece isPiece
    refine ⟨piece.mrs, stored, ?_⟩
    rw [isSlice, sliceOf_place]
    refine ⟨rfl, ?_⟩
    rw [← ordered.section_start inView]
    rfl

/-- The dispatch of a view can be built and compacted, and be read before and after. -/
theorem buildDispatch_readable (page : TargetPage) (allocHint : Nat) (ordered : Ordered view)
    (few : sectionsProduced page view < page.size) :
    ∃ built compacted sectionOf pieces withSubpage,
      buildDispatch page allocHint view = .ok built ∧
      built.sections.length = sectionsProduced page view ∧
      addressSpaceDispatchCompact page built = .ok compacted ∧
      (∀ mrs, mrs ∈ pieces ↔ ∃ piece ∈ viewPieces page view, piece.mrs = mrs) ∧
      ∀ d, d = built ∨ d = compacted → Readable page d sectionOf pieces withSubpage := by
  obtain ⟨built, sectionOf, pieces, withSubpage, ran, inv, members, length⟩ :=
    buildDispatch_spec page allocHint ordered (Nat.le_of_lt few)
  have small : built.map.nodes.length ≤ physMapNodeNil := by
    have := nodes_small page inv.nodes (by omega)
    omega
  obtain ⟨compacted, ran', sections, subpages, recent, reads⟩ :=
    addressSpaceDispatchCompact_spec page inv.table small
  refine ⟨built, compacted, sectionOf, pieces, withSubpage, ran, length, ran', members, ?_⟩
  intro d isDispatch
  rcases isDispatch with rfl | rfl
  · refine ⟨inv.table.readsAs page small, inv.sections, fun number isRecent => ?_⟩
    rw [inv.recent] at isRecent
    cases isRecent
  · refine ⟨reads, ?_, fun number isRecent => ?_⟩
    · rw [sections, subpages]
      exact inv.sections
    · rw [recent, inv.recent] at isRecent
      cases isRecent

/-- Every lookup in the dispatch of a view, before or after the compaction and after any
earlier lookups, agrees with the view. -/
theorem lookup_agrees_with_view (page : TargetPage) (allocHint : Nat) (view : FlatView)
    (ordered : Ordered view) (few : sectionsProduced page view < page.size) :
    ∃ built compacted, buildDispatch page allocHint view = .ok built ∧
      built.sections.length = sectionsProduced page view ∧
      addressSpaceDispatchCompact page built = .ok compacted ∧
      ∀ d, d = built ∨ d = compacted → ∀ earlier : List (Nat × Bool),
        (∀ query ∈ earlier, query.1 < 2 ^ 64) → ∀ addr < 2 ^ 64,
        ∃ d' number d'' mrs, lookups page d earlier = .ok d' ∧
          addressSpaceLookupRegion page d' addr true = .ok (number, d'') ∧
          d''.sections[number]? = some mrs ∧ AgreesWith view addr number mrs := by
  obtain ⟨built, compacted, sectionOf, pieces, withSubpage, ran, length, ran', members, readable⟩ :=
    buildDispatch_readable page allocHint ordered few
  refine ⟨built, compacted, ran, length, ran', fun d isDispatch earlier low addr lowAddr => ?_⟩
  obtain ⟨d', looked, _, readable'⟩ := lookups_spec (readable d isDispatch) earlier low
  obtain ⟨number, d'', found, sections', _, resolved⟩ :=
    addressSpaceLookupRegion_spec readable' lowAddr true
  obtain ⟨mrs, stored, agrees⟩ := agrees_of_answers ordered readable'.sections.dummy members
    (readable'.sections.answer addr lowAddr number (resolved rfl))
  exact ⟨d', number, d'', mrs, looked, found, by rw [sections', stored], agrees⟩

/-- RAM that starts inside a page and goes on for two more, and two devices that share a
page. -/
def sharedPageView : FlatView :=
  [⟨1, 0, ⟨0x40000800, 0x2800⟩, 0, true, false, false, false⟩,
    ⟨2, 0x10, ⟨0x50000000, 0x100⟩, 0, true, false, false, false⟩,
    ⟨3, 0x20, ⟨0x50000200, 0x80⟩, 0, true, false, false, false⟩]

theorem lookup_agrees_with_view_shared : ∃ built compacted,
    buildDispatch ⟨12, by decide, by decide⟩ 16 sharedPageView = .ok built ∧
      built.sections.length = 7 ∧
      addressSpaceDispatchCompact ⟨12, by decide, by decide⟩ built = .ok compacted ∧
      ∃ number d mrs,
        addressSpaceLookupRegion ⟨12, by decide, by decide⟩ compacted 0x50000210 true =
          .ok (number, d) ∧ d.sections[number]? = some mrs ∧ mrs.mr = .region 3 := by
  have ordered : Ordered sharedPageView :=
    ⟨by decide, by decide, by decide, by decide⟩
  obtain ⟨built, compacted, made, length, compact, agrees⟩ :=
    lookup_agrees_with_view ⟨12, by decide, by decide⟩ 16 sharedPageView ordered (by decide)
  obtain ⟨_, number, d, mrs, same, looked, stored, isRange⟩ :=
    agrees compacted (Or.inr rfl) [] nofun 0x50000210 (by decide)
  cases same
  refine ⟨built, compacted, made, length.trans (by decide), compact, number, d, mrs, looked, stored, ?_⟩
  exact isRange.1

/-- The dispatch of `generate_memory_topology` finds at each address, after any lookups,
what priority resolution says of it. -/
theorem topology_dispatch_resolves (g : RegionGraph) (mr : MrId) (page : TargetPage)
    (allocHint : Nat) (few : sectionsProduced page (g.generateMemoryTopology (some mr)) < page.size) :
    ∃ d, (buildDispatch page allocHint (g.generateMemoryTopology (some mr))).bind
        (addressSpaceDispatchCompact page) = .ok d ∧
      ∀ earlier : List (Nat × Bool), (∀ query ∈ earlier, query.1 < 2 ^ 64) → ∀ addr < 2 ^ 64,
        ∃ d' number d'' mrs, lookups page d earlier = .ok d' ∧
          addressSpaceLookupRegion page d' addr true = .ok (number, d'') ∧
          d''.sections[number]? = some mrs ∧
          match g.resolve mr (addr - (g.region mr).addr) {} with
          | some answer => mrs.mr = .region answer.mr ∧
              ((mrs.offsetWithinRegion : Int) + (addr - mrs.offsetWithinAddressSpace)) % 2 ^ 64 =
                answer.offset % 2 ^ 64
          | none => mrs = unassignedSection := by
  have ordered := g.ordered_topology (some mr)
  obtain ⟨_, d, _, _, _, made, -, compact, members, readable⟩ :=
    buildDispatch_readable page allocHint ordered few
  refine ⟨d, by rw [made, bind_ok, compact], fun earlier low addr lowAddr => ?_⟩
  obtain ⟨d', looked, -, after⟩ := lookups_spec (readable d (.inr rfl)) earlier low
  obtain ⟨number, d'', found, same, -, resolved⟩ :=
    addressSpaceLookupRegion_spec after lowAddr true
  obtain ⟨mrs, stored, agrees⟩ := agrees_of_answers ordered after.sections.dummy members
    (after.sections.answer addr lowAddr number (resolved rfl))
  refine ⟨d', number, d'', mrs, looked, found, by rw [same, stored], ?_⟩
  rw [← g.generateMemoryTopology_at mr (Int.natCast_nonneg addr) (by omega), viewAt]
  unfold AgreesWith at agrees
  split at agrees <;> simp_all [FlatRange.resolution]

/-- One device. -/
theorem topology_dispatch_resolves_one :
    ∃ d number d' mrs, addressSpaceLookupRegion ⟨12, by decide, by decide⟩ d 5 true =
      .ok (number, d') ∧ d'.sections[number]? = some mrs ∧ mrs.mr = .region 0 := by
  obtain ⟨d, -, finds⟩ := topology_dispatch_resolves
    (.ofTable [{ size := 4096, terminates := true }] (by decide)) 0
    ⟨12, by decide, by decide⟩ 16 (by decide)
  obtain ⟨_, _, _, _, -, looked, stored, serves⟩ := finds [] nofun 5 (by decide)
  exact ⟨_, _, _, _, looked, stored, serves.1⟩

end QemuGzvm.Physmem
