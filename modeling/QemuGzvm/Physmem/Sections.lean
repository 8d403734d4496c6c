import QemuGzvm.Physmem.PageTable

/-!
Contract: the sections and subpages of a dispatch against the pieces registered.

Owns:
- `Sections`, the invariant between the section array, the subpages, the function
  from pages to sections and the pieces registered so far;
- its three steps: a new subpage, a piece of a page, a run of whole pages.

A piece is a section of a flat range that register_subpage or register_multipage is
handed. The invariant says which section every address resolves to, so that no
later argument looks into the arrays.
-/

namespace QemuGzvm.Physmem

open QemuGzvm.Library QemuGzvm.Memory

def DispatchSection.Covers (mrs : DispatchSection) (addr : Nat) : Prop :=
  mrs.offsetWithinAddressSpace ≤ addr ∧ addr < mrs.offsetWithinAddressSpace + mrs.size

variable {mrs : DispatchSection} {subpage : Subpage} {α : Type}

theorem sectionCoversAddr_iff {addr : Nat} (some : 0 < mrs.size)
    (inside : mrs.offsetWithinAddressSpace + mrs.size ≤ 2 ^ 64) (low : addr < 2 ^ 64) :
    sectionCoversAddr mrs addr = true ↔ mrs.Covers addr := by
  unfold sectionCoversAddr rangeCoversByte DispatchSection.Covers
  rcases Nat.lt_or_eq_of_le (Nat.le_trans (Nat.le_add_left _ _) inside) with small | whole
  · grind
  · grind

variable (page : TargetPage)

/-- What the section of a page is: a piece of whole pages, or the page's own subpage. -/
inductive PageKind (subpages : List Subpage) (index : Nat) (mrs : DispatchSection) : Prop
  | region (mr : MrId) (isMr : mrs.mr = .region mr)
  | subpage (number : Nat) (subpage : Subpage) (isMr : mrs.mr = .subpage number)
      (stored : subpages[number]? = some subpage) (base : subpage.base = index * page.size)

/-- The section number an address ends at when subpages are resolved. -/
inductive Resolves (sections : List DispatchSection) (subpages : List Subpage)
    (sectionOf : Nat → Nat) (addr : Nat) : Nat → Prop
  | plain {mrs : DispatchSection} (stored : sections[sectionOf (addr / page.size)]? = some mrs)
      (notSubpage : ∀ number, mrs.mr ≠ .subpage number) :
      Resolves sections subpages sectionOf addr (sectionOf (addr / page.size))
  | subpage {mrs : DispatchSection} {number : Nat} {subpage : Subpage}
      (stored : sections[sectionOf (addr / page.size)]? = some mrs)
      (isMr : mrs.mr = .subpage number) (found : subpages[number]? = some subpage) :
      Resolves sections subpages sectionOf addr (subpage.subSection (addr % page.size))

/-- The piece that covers an address is section `number`; without one it is the unassigned
section. -/
def Answers (sections : List DispatchSection) (pieces : List DispatchSection) (addr number : Nat) :
    Prop :=
  (∀ piece ∈ pieces, piece.Covers addr → sections[number]? = some piece) ∧
    ((∀ piece ∈ pieces, ¬piece.Covers addr) → number = physSectionUnassigned)

structure Sections (sections : List DispatchSection) (subpages : List Subpage)
    (sectionOf : Nat → Nat) (pieces : List DispatchSection) (withSubpage : List Nat) : Prop where
  dummy : sections[physSectionUnassigned]? = some unassignedSection
  count : sections.length = 1 + pieces.length + withSubpage.length
  regions : ∀ piece ∈ pieces, ∃ mr, piece.mr = .region mr
  /-- A section in the tree covers exactly the pages that are mapped to it. -/
  covers : ∀ index, sectionOf index ≠ physSectionUnassigned →
    ∃ mrs, sections[sectionOf index]? = some mrs ∧ PageKind page subpages index mrs ∧
      ∀ addr < 2 ^ 64,
        sectionCoversAddr mrs addr = true ↔ sectionOf (addr / page.size) = sectionOf index
  answer : ∀ addr < 2 ^ 64, ∀ number, Resolves page sections subpages sectionOf addr number →
    Answers sections pieces addr number
  subpaged : ∀ index, index ∈ withSubpage ↔
    ∃ mrs number, sections[sectionOf index]? = some mrs ∧ mrs.mr = .subpage number

variable {page} {sections : List DispatchSection} {subpages : List Subpage}
  {sectionOf : Nat → Nat} {pieces : List DispatchSection} {withSubpage : List Nat}

theorem Sections.present (inv : Sections page sections subpages sectionOf pieces withSubpage)
    (index : Nat) : sectionOf index < sections.length := by
  grind [Sections]

variable {addr number index : Nat} {piece : DispatchSection}

section

variable (inv : Sections page sections subpages sectionOf pieces withSubpage)
include inv

theorem Sections.isSet (stored : sections[sectionOf index]? = some mrs)
    (assigned : mrs.mr ≠ .ioMemUnassigned) : sectionOf index ≠ physSectionUnassigned := by
  intro unset
  rw [unset, inv.dummy, Option.some.injEq] at stored
  rw [← stored] at assigned
  exact assigned rfl

/-- A page whose section is a subpage has that subpage to itself. -/
theorem Sections.own_subpage (stored : sections[sectionOf index]? = some mrs)
    (isMr : mrs.mr = .subpage number) :
    ∃ subpage, subpages[number]? = some subpage ∧ subpage.base = index * page.size := by
  obtain ⟨mrs', again, kind, _⟩ := inv.covers _ (inv.isSet stored (by rw [isMr]; nofun))
  rw [stored, Option.some.injEq] at again
  subst again
  cases kind with
  | region mr isRegion =>
    rw [isRegion] at isMr
    cases isMr
  | subpage number' subpage isSubpage found base =>
    rw [isSubpage, DispatchMr.subpage.injEq] at isMr
    exact ⟨subpage, isMr ▸ found, base⟩

theorem Sections.resolves_unset (unset : sectionOf (addr / page.size) = physSectionUnassigned) :
    Resolves page sections subpages sectionOf addr (sectionOf (addr / page.size)) := by
  have stored : sections[sectionOf (addr / page.size)]? = some unassignedSection := by
    rw [unset, inv.dummy]
  exact .plain stored nofun

/-- An address of a page that is not set is covered by no piece. -/
theorem Sections.not_covered (low : addr < 2 ^ 64)
    (unset : sectionOf (addr / page.size) = physSectionUnassigned) :
    ∀ piece ∈ pieces, ¬piece.Covers addr := by
  intro piece member covered
  have isPiece := (inv.answer addr low _ (inv.resolves_unset unset)).1 piece member covered
  obtain ⟨mr, isMr⟩ := inv.regions piece member
  exact inv.isSet isPiece (by rw [isMr]; nofun) unset

/-- The section of a page that no piece covers at `addr` is not a piece. -/
theorem Sections.not_region (low : addr < 2 ^ 64) (uncovered : ∀ piece ∈ pieces, ¬piece.Covers addr)
    (stored : sections[sectionOf (addr / page.size)]? = some mrs) (mr : MrId) :
    mrs.mr ≠ .region mr := by
  intro isMr
  have resolved : Resolves page sections subpages sectionOf addr
      (sectionOf (addr / page.size)) :=
    .plain stored fun number isSubpage => by
      rw [isMr] at isSubpage
      cases isSubpage
  exact inv.isSet stored (by rw [isMr]; nofun) ((inv.answer addr low _ resolved).2 uncovered)

/-! ### Steps -/

/-- An address of a page that a step leaves alone resolves as before. -/
theorem Sections.resolves_old
    {sections' : List DispatchSection} {subpages' : List Subpage} {sectionOf' : Nat → Nat}
    (samePage : sectionOf' (addr / page.size) = sectionOf (addr / page.size))
    (grow : ∀ (number : Nat) (mrs : DispatchSection), sections[number]? = some mrs →
      sections'[number]? = some mrs)
    (keep : ∀ (number : Nat) (subpage : Subpage), subpages[number]? = some subpage →
      subpage.base = addr / page.size * page.size → ∃ subpage', subpages'[number]? = some subpage' ∧
        subpage'.subSection (addr % page.size) = subpage.subSection (addr % page.size))
    (resolved : Resolves page sections' subpages' sectionOf' addr number) :
    Resolves page sections subpages sectionOf addr number := by
  obtain ⟨mrs, stored⟩ : ∃ mrs, sections[sectionOf (addr / page.size)]? = some mrs :=
    ⟨_, List.getElem?_eq_getElem (inv.present _)⟩
  have stored' := grow _ _ stored
  cases resolved with
  | @plain other isStored notSubpage =>
    rw [samePage] at isStored ⊢
    rw [stored', Option.some.injEq] at isStored
    exact .plain stored (isStored ▸ notSubpage)
  | @subpage other index subpage isStored isMr found =>
    rw [samePage, stored', Option.some.injEq] at isStored
    rw [← isStored] at isMr
    obtain ⟨old, oldFound, base⟩ := inv.own_subpage stored isMr
    obtain ⟨subpage', found', same⟩ := keep index old oldFound base
    rw [found, Option.some.injEq] at found'
    subst found'
    rw [same]
    exact .subpage stored isMr oldFound

/-- The function from pages to sections when a run of pages gets a new section. -/
theorem Sections.newPages (index nb : Nat) : ∃ sectionOf' : Nat → Nat,
    (fun x => if index ≤ x ∧ x < index + nb then sections.length else sectionOf x) = sectionOf' ∧
      (∀ x, index ≤ x ∧ x < index + nb → sectionOf' x = sections.length) ∧
      (∀ x, ¬(index ≤ x ∧ x < index + nb) → sectionOf' x = sectionOf x) ∧
      ∀ x, sectionOf' x = sections.length ↔ index ≤ x ∧ x < index + nb := by
  refine ⟨_, rfl, fun x inside => if_pos inside, fun x outside => if_neg outside, fun x => ?_⟩
  have old := inv.present x
  split <;> omega

end

/-- On a page with a subpage, addresses resolve to what the subpage says. -/
theorem Resolves.eq_subSection {sub : Nat}
    (resolved : Resolves page sections subpages sectionOf addr number)
    (stored : sections[sectionOf (addr / page.size)]? = some mrs) (isMr : mrs.mr = .subpage sub)
    (found : subpages[sub]? = some subpage) :
    number = subpage.subSection (addr % page.size) := by
  cases resolved with
  | plain stored' notSubpage =>
    rw [stored, Option.some.injEq] at stored'
    exact (notSubpage sub (stored' ▸ isMr)).elim
  | subpage stored' isMr' found' =>
    rw [stored, Option.some.injEq] at stored'
    rw [← stored', isMr, DispatchMr.subpage.injEq] at isMr'
    rw [← isMr', found, Option.some.injEq] at found'
    rw [found']

theorem getElem?_append_of_some {cells : List α} {cell : α} (stored : cells[index]? = some cell)
    (more : List α) : (cells ++ more)[index]? = some cell := by
  rw [List.getElem?_append_left (List.getElem?_eq_some_iff.mp stored).1, stored]

theorem div_size_eq_iff (page : TargetPage) :
    addr / page.size = index ↔ index * page.size ≤ addr ∧ addr < index * page.size + page.size := by
  have positive := page.size_pos
  rw [Nat.div_eq_iff positive]
  omega

theorem answers_new (covers : piece.Covers addr)
    (apart : ∀ other ∈ pieces, ∀ addr, other.Covers addr → ¬piece.Covers addr) :
    Answers (sections ++ [piece]) (piece :: pieces) addr sections.length := by
  refine ⟨fun other member covered => ?_, fun uncovered => ?_⟩
  · grind
  · exact (uncovered piece List.mem_cons_self covers).elim

section

variable (inv : Sections page sections subpages sectionOf pieces withSubpage)
include inv

/-- A subpage is made for a page that is not set. Its cells name the unassigned section. -/
theorem Sections.add_subpage (unset : sectionOf index = physSectionUnassigned) (inside : index < page.pages) :
    Sections page
      (sections ++ [⟨.subpage subpages.length, 0, index * page.size, page.size⟩])
      (subpages ++ [⟨index * page.size, fun _ => 0⟩])
      (fun x => if index ≤ x ∧ x < index + 1 then sections.length else sectionOf x) pieces
      (index :: withSubpage) := by
  obtain ⟨sectionOf', isSectionOf, new, old, isNew⟩ := inv.newPages index 1
  rw [isSectionOf]
  have here := new index (by omega)
  have elsewhere (x : Nat) (different : x ≠ index) := old x (by omega)
  have isHere (x : Nat) := (isNew x).trans (show _ ↔ x = index by omega)
  have bound : index * page.size + page.size ≤ 2 ^ 64 := by
    rw [← page.pages_mul_size, ← Nat.succ_mul]
    exact Nat.mul_le_mul_right _ inside
  constructor
  · exact getElem?_append_of_some inv.dummy _
  · rw [List.length_append, inv.count]
    simp only [List.length_cons, List.length_nil]
    omega
  · exact inv.regions
  · intro x isSet
    by_cases same : x = index
    · subst same
      refine ⟨_, here ▸ List.getElem?_concat_length, .subpage _ _ rfl List.getElem?_concat_length rfl, ?_⟩
      intro addr low
      rw [sectionCoversAddr_iff page.size_pos bound low, here, isHere, div_size_eq_iff]
      rfl
    · rw [elsewhere x same] at isSet ⊢
      obtain ⟨mrs, stored, kind, covered⟩ := inv.covers x isSet
      refine ⟨mrs, getElem?_append_of_some stored _, ?_, fun addr low => ?_⟩
      · cases kind with
        | region mr isMr => exact .region mr isMr
        | subpage number subpage isMr found base =>
          exact .subpage number subpage isMr (getElem?_append_of_some found _) base
      · grind
  · intro addr low number resolved
    by_cases onPage : addr / page.size = index
    · have uncovered := inv.not_covered low (onPage ▸ unset)
      refine ⟨fun piece member covered => (uncovered piece member covered).elim, fun _ => ?_⟩
      rw [← onPage] at here
      exact resolved.eq_subSection (here ▸ List.getElem?_concat_length) rfl List.getElem?_concat_length
    · have before := inv.resolves_old (elsewhere _ onPage)
        (fun _ _ stored => getElem?_append_of_some stored _)
        (fun _ subpage found _ => ⟨subpage, getElem?_append_of_some found _, rfl⟩) resolved
      obtain ⟨covered, uncovered⟩ := inv.answer addr low number before
      exact ⟨fun piece member covers => getElem?_append_of_some (covered piece member covers) _,
        uncovered⟩
  · intro x
    rw [List.mem_cons]
    by_cases same : x = index
    · subst same
      refine ⟨fun _ => ⟨_, _, here ▸ List.getElem?_concat_length, rfl⟩, fun _ => Or.inl rfl⟩
    · rw [elsewhere x same, List.getElem?_append_left (inv.present x), inv.subpaged x]
      exact ⟨fun member => member.resolve_left same, Or.inr⟩

/-- An address outside the new piece keeps its answer. -/
theorem Sections.answers_old (low : addr < 2 ^ 64) (before : Resolves page sections subpages sectionOf addr number)
    (outside : ¬piece.Covers addr) :
    Answers (sections ++ [piece]) (piece :: pieces) addr number := by
  obtain ⟨covered, uncovered⟩ := inv.answer addr low _ before
  refine ⟨fun other member covers => ?_, fun none => ?_⟩
  · grind
  · exact uncovered fun other member => none other (List.mem_cons_of_mem _ member)

theorem Sections.add_part (stored : sections[sectionOf index]? = some mrs) (isMr : mrs.mr = .subpage number)
    (found : subpages[number]? = some subpage) (isRegion : ∃ mr, piece.mr = .region mr)
    (some : 0 < piece.size) (onPage : piece.offsetWithinAddressSpace / page.size = index)
    (inPage : piece.offsetWithinAddressSpace % page.size + piece.size ≤ page.size)
    (apart : ∀ other ∈ pieces, ∀ addr, other.Covers addr → ¬piece.Covers addr) :
    Sections page (sections ++ [piece])
      (subpages.modify number fun mmio => subpageRegister page mmio
        (piece.offsetWithinAddressSpace % page.size)
        (piece.offsetWithinAddressSpace % page.size + piece.size - 1) sections.length)
      sectionOf (piece :: pieces) withSubpage := by
  have base : subpage.base = index * page.size := by
    obtain ⟨own, isOwn, base⟩ := inv.own_subpage stored isMr
    rw [found, Option.some.injEq] at isOwn
    rw [isOwn, base]
  obtain ⟨start, isStart⟩ : ∃ start, start = piece.offsetWithinAddressSpace % page.size := ⟨_, rfl⟩
  rw [← isStart] at inPage ⊢
  have isAddr := Nat.div_add_mod' piece.offsetWithinAddressSpace page.size
  rw [onPage, ← isStart] at isAddr
  have registered : (subpages.modify number fun mmio => subpageRegister page mmio start
      (start + piece.size - 1) sections.length)[number]? =
      Option.some (⟨subpage.base, fun idx => if start ≤ idx ∧ idx ≤ start + piece.size - 1
        then sections.length else subpage.subSection idx⟩ : Subpage) := by
    rw [List.getElem?_modify_eq, found, Option.map_eq_map, Option.map_some, subpageRegister,
      if_neg (by omega)]
  constructor
  · exact getElem?_append_of_some inv.dummy _
  · rw [List.length_append, inv.count]
    simp only [List.length_cons, List.length_nil]
    omega
  · grind [Sections]
  · intro x isSet'
    obtain ⟨mrs', stored', kind, covered⟩ := inv.covers x isSet'
    refine ⟨mrs', getElem?_append_of_some stored' _, ?_, covered⟩
    cases kind with
    | region mr isMr' => exact .region mr isMr'
    | subpage number' subpage' isMr' found' base' =>
      by_cases same : number' = number
      · subst same
        rw [found, Option.some.injEq] at found'
        exact .subpage number' _ isMr' registered (found' ▸ base')
      · refine .subpage number' subpage' isMr' ?_ base'
        rw [List.getElem?_modify_ne _ _ (Ne.symm same), found']
  · intro addr low result resolved
    have split := Nat.div_add_mod' addr page.size
    by_cases here : addr / page.size = index
    · have stored' := getElem?_append_of_some stored [piece]
      rw [here] at split
      rw [resolved.eq_subSection (here.symm ▸ stored') isMr registered]
      dsimp only
      split
      case isTrue within =>
        refine answers_new ?_ apart
        unfold DispatchSection.Covers
        omega
      case isFalse outside =>
        have notCovers : ¬piece.Covers addr := by
          unfold DispatchSection.Covers
          omega
        have before : Resolves page sections subpages sectionOf addr
            (subpage.subSection (addr % page.size)) :=
          .subpage (here ▸ stored) isMr found
        exact inv.answers_old low before notCovers
    · have notCovers : ¬piece.Covers addr := by
        intro covers
        apply here
        rw [div_size_eq_iff]
        unfold DispatchSection.Covers at covers
        omega
      have before := inv.resolves_old rfl (fun _ _ stored => getElem?_append_of_some stored _)
        (fun number' subpage' found' base' => by
          refine ⟨subpage', ?_, rfl⟩
          rw [List.getElem?_modify_ne, found']
          rintro rfl
          rw [found, Option.some.injEq] at found'
          rw [← found', base] at base'
          exact here (Nat.eq_of_mul_eq_mul_right page.size_pos base').symm) resolved
      exact inv.answers_old low before notCovers
  · intro x
    rw [List.getElem?_append_left (inv.present x)]
    exact inv.subpaged x

theorem Sections.add_whole {nb : Nat} (isRegion : ∃ mr, piece.mr = .region mr)
    (isStart : piece.offsetWithinAddressSpace = index * page.size)
    (isSize : piece.size = nb * page.size) (some : 0 < nb) (inside : index + nb ≤ page.pages)
    (free : ∀ x, index ≤ x → x < index + nb → sectionOf x = physSectionUnassigned)
    (apart : ∀ other ∈ pieces, ∀ addr, other.Covers addr → ¬piece.Covers addr) :
    Sections page (sections ++ [piece]) subpages
      (fun x => if index ≤ x ∧ x < index + nb then sections.length else sectionOf x)
      (piece :: pieces) withSubpage := by
  obtain ⟨sectionOf', isSectionOf, here, elsewhere, isHere⟩ := inv.newPages index nb
  rw [isSectionOf]
  have bound : piece.offsetWithinAddressSpace + piece.size ≤ 2 ^ 64 := by
    rw [isStart, isSize, ← Nat.add_mul, ← page.pages_mul_size]
    exact Nat.mul_le_mul_right _ inside
  have covers : ∀ addr, piece.Covers addr ↔
      index ≤ addr / page.size ∧ addr / page.size < index + nb := by
    intro addr
    rw [DispatchSection.Covers, isStart, isSize, ← Nat.add_mul, Nat.le_div_iff_mul_le page.size_pos,
      Nat.div_lt_iff_lt_mul page.size_pos]
  have positive : 0 < piece.size := by
    rw [isSize]
    exact Nat.mul_pos some page.size_pos
  constructor
  · exact getElem?_append_of_some inv.dummy _
  · rw [List.length_append, inv.count]
    simp only [List.length_cons, List.length_nil]
    omega
  · grind [Sections]
  · intro x isSet
    by_cases within : index ≤ x ∧ x < index + nb
    · obtain ⟨mr, isMr⟩ := isRegion
      rw [here x within]
      refine ⟨piece, List.getElem?_concat_length, .region mr isMr, fun addr low => ?_⟩
      rw [sectionCoversAddr_iff positive bound low, covers, isHere]
    · grind [Sections]
  · intro addr low number resolved
    by_cases onPage : index ≤ addr / page.size ∧ addr / page.size < index + nb
    · have isNumber : number = sections.length := by
        obtain ⟨mr, isMr⟩ := isRegion
        have stored := List.getElem?_concat_length (l := sections) (a := piece)
        cases resolved with
        | plain => exact here _ onPage
        | subpage isStored isSubpage =>
          grind
      rw [isNumber]
      exact answers_new ((covers addr).mpr onPage) apart
    · have before := inv.resolves_old (elsewhere _ onPage)
        (fun _ _ stored => getElem?_append_of_some stored _)
        (fun _ subpage found _ => ⟨subpage, found, rfl⟩) resolved
      exact inv.answers_old low before fun covered => onPage ((covers addr).mp covered)
  · intro x
    by_cases within : index ≤ x ∧ x < index + nb
    · obtain ⟨mr, isMr⟩ := isRegion
      have unset := free x within.1 within.2
      rw [here x within, inv.subpaged x, unset, inv.dummy, List.getElem?_concat_length]
      constructor
      · rintro ⟨mrs, number, stored, isSubpage⟩
        cases stored
        cases isSubpage
      · grind
    · rw [elsewhere x within, List.getElem?_append_left (inv.present x)]
      exact inv.subpaged x

end

end QemuGzvm.Physmem
