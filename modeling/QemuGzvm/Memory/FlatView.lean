import QemuGzvm.Memory.Region
import Mathlib.Data.List.Perm.Subperm

/-!
Contract: flat ranges and flat views (`struct FlatRange`, `flatview_insert`,
`flatrange_equal` and `section_from_flat_range` of `system/memory.c`).

Owns:
- the list of ranges a view holds and its invariant `Ordered`;
- `lookup`, the range an address falls in, and that at most one does;
- the section a range is reported as.

The fields `fv`, `nr_allocated`, `ref`, `root` and `dispatch` are left out here:
no listener callback depends on them.
-/

namespace QemuGzvm.Memory

structure FlatRange where
  mr : MrId
  offsetInRegion : Nat
  addr : AddrRange
  dirtyLogMask : BitVec 8
  romdMode : Bool
  readonly : Bool
  nonvolatile : Bool
  unmergeable : Bool
deriving DecidableEq, Repr

/-- `view->ranges[0..view->nr)`. -/
abbrev FlatView := List FlatRange

def sectionFromFlatRange (fr : FlatRange) : MemoryRegionSection where
  mr := fr.mr
  offsetWithinRegion := fr.offsetInRegion
  size := fr.addr.size.toNat
  offsetWithinAddressSpace := int128GetLo fr.addr.start
  readonly := fr.readonly
  nonvolatile := fr.nonvolatile
  unmergeable := fr.unmergeable

/-- Equality of two ranges, but for `dirty_log_mask`. -/
def flatrangeEqual (a b : FlatRange) : Bool :=
  decide (a.mr = b.mr) && addrrangeEqual a.addr b.addr &&
    decide (a.offsetInRegion = b.offsetInRegion) && decide (a.romdMode = b.romdMode) &&
    decide (a.readonly = b.readonly) && decide (a.nonvolatile = b.nonvolatile) &&
    decide (a.unmergeable = b.unmergeable)

def flatviewInsert (view : FlatView) (pos : Nat) (range : FlatRange) : FlatView :=
  view.take pos ++ range :: view.drop pos

variable {a b fr : FlatRange} {view : FlatView}

theorem flatrangeEqual_iff :
    flatrangeEqual a b = true ↔ a = { b with dirtyLogMask := a.dirtyLogMask } := by
  cases a
  cases b
  simp [flatrangeEqual, addrrangeEqual_iff]
  tauto

theorem flatrangeEqual_section (equal : flatrangeEqual a b = true) :
    sectionFromFlatRange a = sectionFromFlatRange b := by
  rw [flatrangeEqual_iff] at equal
  rw [equal]
  rfl

theorem flatrangeEqual_addr (equal : flatrangeEqual a b = true) : a.addr = b.addr := by
  rw [flatrangeEqual_iff] at equal
  rw [equal]

/-! ### Ordered views -/

/-- The ranges of a view are non-empty, lie in the 64-bit address space, and each
ends before the next one starts. -/
structure Ordered (view : FlatView) : Prop where
  nonempty : ∀ fr ∈ view, 0 < fr.addr.size
  low : ∀ fr ∈ view, 0 ≤ fr.addr.start
  high : ∀ fr ∈ view, addrrangeEnd fr.addr ≤ 2 ^ 64
  apart : view.Pairwise fun a b => addrrangeEnd a.addr ≤ b.addr.start

theorem ordered_nil : Ordered [] := ⟨by simp, by simp, by simp, List.Pairwise.nil⟩

theorem Ordered.tail (ordered : Ordered (fr :: view)) : Ordered view :=
  ⟨fun r member => ordered.nonempty r (List.mem_cons_of_mem _ member),
    fun r member => ordered.low r (List.mem_cons_of_mem _ member),
    fun r member => ordered.high r (List.mem_cons_of_mem _ member),
    (List.pairwise_cons.mp ordered.apart).2⟩

theorem ordered_cons_iff :
    Ordered (fr :: view) ↔
      (0 < fr.addr.size ∧ 0 ≤ fr.addr.start ∧ addrrangeEnd fr.addr ≤ 2 ^ 64) ∧
        (∀ later ∈ view, addrrangeEnd fr.addr ≤ later.addr.start) ∧ Ordered view := by
  constructor
  · intro ordered
    exact ⟨⟨ordered.nonempty fr (by simp), ordered.low fr (by simp), ordered.high fr (by simp)⟩,
      (List.pairwise_cons.mp ordered.apart).1, ordered.tail⟩
  · rintro ⟨⟨nonempty, low, high⟩, apart, ordered⟩
    exact ⟨List.forall_mem_cons.mpr ⟨nonempty, ordered.nonempty⟩,
      List.forall_mem_cons.mpr ⟨low, ordered.low⟩, List.forall_mem_cons.mpr ⟨high, ordered.high⟩,
      List.pairwise_cons.mpr ⟨apart, ordered.apart⟩⟩

theorem Ordered.head_lt (ordered : Ordered (fr :: view)) {later : FlatRange}
    (member : later ∈ view) : fr.addr.start < later.addr.start := by
  have ends := (List.pairwise_cons.mp ordered.apart).1 later member
  have size := ordered.nonempty fr (by simp)
  unfold addrrangeEnd at ends
  omega

theorem Ordered.head_le (ordered : Ordered (fr :: view)) {other : FlatRange}
    (member : other ∈ fr :: view) : fr.addr.start ≤ other.addr.start := by
  rcases List.mem_cons.mp member with rfl | later
  · exact Int.le_refl _
  · exact Int.le_of_lt (ordered.head_lt later)

section

variable (ordered : Ordered view)
include ordered

theorem Ordered.start_lt_bound (member : fr ∈ view) : fr.addr.start < 2 ^ 64 := by
  grind [Ordered, addrrangeEnd]

theorem Ordered.section_start (member : fr ∈ view) :
    ((sectionFromFlatRange fr).offsetWithinAddressSpace : Int) = fr.addr.start :=
  int128GetLo_of_range (ordered.low fr member) (ordered.start_lt_bound member)

theorem Ordered.section_size (member : fr ∈ view) :
    ((sectionFromFlatRange fr).size : Int) = fr.addr.size :=
  Int.toNat_of_nonneg (Int.le_of_lt (ordered.nonempty fr member))

theorem Ordered.eq_of_start (aMember : a ∈ view) (bMember : b ∈ view)
    (startEq : a.addr.start = b.addr.start) : a = b := by
  induction view with
  | nil => simp at aMember
  | cons head rest ih =>
    rcases List.mem_cons.mp aMember with rfl | aLater <;>
      rcases List.mem_cons.mp bMember with rfl | bLater
    · rfl
    · exact absurd startEq (Int.ne_of_lt (ordered.head_lt bLater))
    · exact absurd startEq.symm (Int.ne_of_lt (ordered.head_lt aLater))
    · exact ih ordered.tail aLater bLater

theorem Ordered.disjoint (aMember : a ∈ view) (bMember : b ∈ view) (different : a ≠ b) :
    addrrangeEnd a.addr ≤ b.addr.start ∨ addrrangeEnd b.addr ≤ a.addr.start := by
  induction view with
  | nil => simp at aMember
  | cons head rest ih =>
    have ends := (List.pairwise_cons.mp ordered.apart).1
    rcases List.mem_cons.mp aMember with rfl | aLater <;>
      rcases List.mem_cons.mp bMember with rfl | bLater
    · exact absurd rfl different
    · exact Or.inl (ends b bLater)
    · exact Or.inr (ends a aLater)
    · exact ih ordered.tail aLater bLater

theorem Ordered.nodup : view.Nodup := by
  induction view with
  | nil => exact List.nodup_nil
  | cons head rest ih =>
    refine List.nodup_cons.mpr ⟨fun member => ?_, ih ordered.tail⟩
    exact Int.lt_irrefl _ (ordered.head_lt member)

/-- The starts of its sections tell the ranges of an ordered view apart. -/
theorem Ordered.eq_of_section_start
    (aMember : a ∈ view) (bMember : b ∈ view)
    (same : (sectionFromFlatRange a).offsetWithinAddressSpace =
      (sectionFromFlatRange b).offsetWithinAddressSpace) : a = b := by
  apply ordered.eq_of_start aMember bMember
  rw [← ordered.section_start aMember, ← ordered.section_start bMember, same]

end

/-! ### Lookup -/

def lookup (view : FlatView) (a : Int) : Option FlatRange :=
  view.find? fun fr => addrrangeContains fr.addr a

theorem lookup_some {a : Int} (found : lookup view a = some fr) :
    fr ∈ view ∧ fr.addr.start ≤ a ∧ a < addrrangeEnd fr.addr :=
  ⟨List.mem_of_find?_eq_some found, addrrangeContains_iff.mp (by simpa using List.find?_some found)⟩

theorem lookup_eq_none {a : Int} :
    lookup view a = none ↔ ∀ fr ∈ view, ¬(fr.addr.start ≤ a ∧ a < addrrangeEnd fr.addr) := by
  simp [lookup, addrrangeContains_iff]

theorem Ordered.lookup_eq (ordered : Ordered view) {a : Int} (member : fr ∈ view)
    (low : fr.addr.start ≤ a) (high : a < addrrangeEnd fr.addr) : lookup view a = some fr := by
  cases found : lookup view a with
  | none => exact absurd ⟨low, high⟩ (lookup_eq_none.mp found fr member)
  | some other =>
    obtain ⟨otherMember, otherLow, otherHigh⟩ := lookup_some found
    by_cases same : other = fr
    · rw [same]
    · rcases ordered.disjoint otherMember member same with before | after <;> omega

theorem Ordered.filter_contains_length_le (ordered : Ordered view) (a : Int) :
    (view.filter fun fr => addrrangeContains fr.addr a).length ≤ 1 := by
  cases found : lookup view a with
  | none =>
    have empty : view.filter (fun fr => addrrangeContains fr.addr a) = [] := by
      rw [List.filter_eq_nil_iff]
      exact fun fr member => by simpa using List.find?_eq_none.mp found fr member
    rw [empty]
    exact Nat.zero_le _
  | some fr =>
    have only : view.filter (fun fr => addrrangeContains fr.addr a) ⊆ [fr] := by
      intro other member
      obtain ⟨inView, inside⟩ := List.mem_filter.mp member
      rw [addrrangeContains_iff] at inside
      have same := ordered.lookup_eq inView inside.1 inside.2
      rw [found] at same
      cases same
      exact List.mem_singleton_self _
    exact (List.subperm_of_subset (ordered.nodup.filter _) only).length_le

end QemuGzvm.Memory
