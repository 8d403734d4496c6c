import QemuGzvm.Memory.RegionGraph

/-!
Contract: `can_merge`, `flatview_simplify` and the rendering half of
`generate_memory_topology` of `system/memory.c`.

Owns:
- the loop that merges each run of adjacent mergeable ranges into its first one;
- that a merge of neighbours keeps the order and what is said of every address, and
  that the loop only merges;
- that no two neighbours are left that could be merged.

The loop tests neighbours as they were: the range that grows is the first of the
run, the one tested is the last.
-/

namespace QemuGzvm.Memory

open Relation

def canMerge (r1 r2 : FlatRange) : Bool :=
  decide (addrrangeEnd r1.addr = r2.addr.start) && decide (r1.mr = r2.mr) &&
    decide ((r1.offsetInRegion : Int) + r1.addr.size = r2.offsetInRegion) &&
    decide (r1.dirtyLogMask = r2.dirtyLogMask) && decide (r1.romdMode = r2.romdMode) &&
    decide (r1.readonly = r2.readonly) && decide (r1.nonvolatile = r2.nonvolatile) &&
    !r1.unmergeable && !r2.unmergeable

def FlatRange.grow (fr : FlatRange) (size : Int) : FlatRange :=
  { fr with addr := { fr.addr with size := fr.addr.size + size } }

/-- The inner loop: `first` is `ranges[i]`, `last` is `ranges[j - 1]`, and the list
holds what stands from `j` on. -/
def mergeRun (first last : FlatRange) : FlatView → FlatRange × FlatView
  | [] => (first, [])
  | next :: rest =>
    if canMerge last next then mergeRun (first.grow next.addr.size) next rest
    else (first, next :: rest)

/-- The outer loop, which drops at least one range a turn. -/
def simplifyFrom : Nat → FlatView → FlatView
  | 0, view => view
  | _ + 1, [] => []
  | turns + 1, first :: rest =>
    let run := mergeRun first first rest
    run.1 :: simplifyFrom turns run.2

def flatviewSimplify (view : FlatView) : FlatView := simplifyFrom view.length view

/-- The ranges of `generate_memory_topology`. The dispatch tree it also builds is
left out here. -/
def RegionGraph.generateMemoryTopology (g : RegionGraph) (mr : Option MrId) : FlatView :=
  flatviewSimplify (match mr with
    | some id => g.render id
    | none => [])

/-! ### Merges -/

/-- The second view comes from the first by merging two neighbours. -/
inductive Merge : FlatView → FlatView → Prop
  | mk (before : FlatView) {first next : FlatRange} (rest : FlatView)
      (merges : canMerge first next = true) :
      Merge (before ++ first :: next :: rest) (before ++ first.grow next.addr.size :: rest)

variable {first last next : FlatRange} {view merged rest : FlatView}

theorem end_of_canMerge (merges : canMerge first next = true) :
    addrrangeEnd first.addr = next.addr.start := by
  grind [canMerge]

/-- A range that has grown merges with what its last part merges with. -/
theorem canMerge_grow (merges : canMerge first next = true) (later : FlatRange) :
    canMerge (first.grow next.addr.size) later = canMerge next later := by
  grind [canMerge, FlatRange.grow, addrrangeEnd]

theorem mergeRun_merges (before : FlatView)
    (same : ∀ later, canMerge first later = canMerge last later) :
    ReflTransGen Merge (before ++ first :: rest)
      (before ++ (mergeRun first last rest).1 :: (mergeRun first last rest).2) := by
  fun_induction mergeRun first last rest with
  | case1 | case3 => exact .refl
  | case2 first last next rest merges ih =>
    rw [← same next] at merges
    exact .head (.mk before rest merges) (ih (canMerge_grow merges))

theorem simplifyFrom_merges (turns : Nat) (before view : FlatView) :
    ReflTransGen Merge (before ++ view) (before ++ simplifyFrom turns view) := by
  induction turns generalizing before view with
  | zero => exact .refl
  | succ turns ih =>
    cases view with
    | nil => exact .refl
    | cons first rest =>
      have later := ih (before ++ [(mergeRun first first rest).1]) (mergeRun first first rest).2
      rw [List.append_assoc, List.append_assoc] at later
      exact (mergeRun_merges before fun _ => rfl).trans later

/-- What every merge keeps, simplifying keeps. -/
theorem flatviewSimplify_keeps {p : FlatView → Prop} (start : p view)
    (step : ∀ view merged, Merge view merged → p view → p merged) : p (flatviewSimplify view) := by
  have merges : ReflTransGen Merge view (flatviewSimplify view) := simplifyFrom_merges _ [] view
  generalize flatviewSimplify view = merged at merges
  induction merges with
  | refl => exact start
  | tail _ merge ih => exact step _ _ merge ih

/-- The ranges of a view stand in the order of their addresses and do not overlap. -/
structure SortedDisjoint (view : FlatView) : Prop where
  sizes : ∀ fr ∈ view, 0 ≤ fr.addr.size
  apart : view.Pairwise fun a b => addrrangeEnd a.addr ≤ b.addr.start

theorem Merge.sortedDisjoint (merge : Merge view merged) (sorted : SortedDisjoint view) :
    SortedDisjoint merged := by
  obtain ⟨before, rest, merges⟩ := merge
  have touch := end_of_canMerge merges
  obtain ⟨sizes, apart⟩ := sorted
  constructor
  · grind [FlatRange.grow]
  · simp only [List.pairwise_append, List.pairwise_cons, FlatRange.grow, addrrangeEnd] at apart touch ⊢
    grind

section Tells

variable {β : Type} {tell : FlatRange → Int → β}
  (grown : ∀ fr size a, tell (fr.grow size) a = tell fr a)
  (agree : ∀ first next a, canMerge first next = true → tell first a = tell next a)
include grown agree

/-- A merge keeps what is said of an address, if ranges that can be merged say the same of it. -/
theorem Merge.lookup_map (merge : Merge view merged) (sizes : ∀ fr ∈ view, 0 ≤ fr.addr.size)
    (a : Int) : (lookup merged a).map (tell · a) = (lookup view a).map (tell · a) := by
  obtain @⟨before, first, next, rest, merges⟩ := merge
  have touch := end_of_canMerge merges
  have firstSize := sizes first (by simp)
  have nextSize := sizes next (by simp)
  have whole : addrrangeContains (first.grow next.addr.size).addr a =
      (addrrangeContains first.addr a || addrrangeContains next.addr a) := by
    rw [Bool.eq_iff_iff, Bool.or_eq_true]
    simp only [addrrangeContains_iff, addrrangeEnd, FlatRange.grow] at touch ⊢
    omega
  simp only [lookup, List.find?_append, List.find?_cons, whole]
  cases addrrangeContains first.addr a <;> cases addrrangeContains next.addr a <;>
    cases List.find? _ before <;> simp [grown, agree first next a merges]

theorem flatviewSimplify_lookup_map (sorted : SortedDisjoint view) :
    SortedDisjoint (flatviewSimplify view) ∧
      ∀ a, (lookup (flatviewSimplify view) a).map (tell · a) = (lookup view a).map (tell · a) := by
  apply flatviewSimplify_keeps (p := fun merged => SortedDisjoint merged ∧
    ∀ a, (lookup merged a).map (tell · a) = (lookup view a).map (tell · a))
  · exact ⟨sorted, fun _ => rfl⟩
  · rintro old merged merge ⟨sorted, same⟩
    refine ⟨merge.sortedDisjoint sorted, fun a => ?_⟩
    rw [merge.lookup_map grown agree sorted.sizes, same]

end Tells

theorem Merge.ordered (merge : Merge view merged) (ordered : Ordered view) : Ordered merged := by
  obtain ⟨nonempty, low, high, apart⟩ := ordered
  have sorted : SortedDisjoint view := ⟨fun fr member => Int.le_of_lt (nonempty fr member), apart⟩
  refine ⟨?_, ?_, ?_, (merge.sortedDisjoint sorted).apart⟩
  all_goals
    obtain ⟨before, rest, merges⟩ := merge
    have touch := end_of_canMerge merges
    grind [FlatRange.grow, addrrangeEnd]

/-- Simplifying keeps the order of a view and all it says. -/
theorem flatviewSimplify_spec {view : FlatView} (ordered : Ordered view) :
    Ordered (flatviewSimplify view) ∧ ∀ a, viewAt (flatviewSimplify view) a = viewAt view a := by
  have sorted : SortedDisjoint view :=
    ⟨fun fr member => Int.le_of_lt (ordered.nonempty fr member), ordered.apart⟩
  refine ⟨flatviewSimplify_keeps ordered fun _ _ => Merge.ordered, ?_⟩
  refine (flatviewSimplify_lookup_map (fun _ _ _ => rfl) (fun first next a merges => ?_) sorted).2
  grind [canMerge, addrrangeEnd, FlatRange.resolution]

/-! ### Nothing is left to merge -/

/-- A run ends at a range that it does not merge with. -/
theorem mergeRun_stops (same : ∀ later, canMerge first later = canMerge last later) :
    ∀ next ∈ (mergeRun first last rest).2.head?,
      canMerge (mergeRun first last rest).1 next = false := by
  fun_induction mergeRun first last rest with
  | case1 => exact nofun
  | case2 first last next rest merges ih =>
    rw [← same next] at merges
    exact ih (canMerge_grow merges)
  | case3 first last next rest apart =>
    rintro later ⟨⟩
    rw [same]
    simpa using apart

/-- The range that grows keeps its start, so it merges with what stands before it as it did. -/
theorem canMerge_mergeRun (fr first last : FlatRange) (rest : FlatView) :
    canMerge fr (mergeRun first last rest).1 = canMerge fr first := by
  fun_induction mergeRun first last rest with
  | case1 | case3 => rfl
  | case2 first last next rest merges ih => exact ih

theorem length_mergeRun_le (first last : FlatRange) (rest : FlatView) :
    (mergeRun first last rest).2.length ≤ rest.length := by
  fun_induction mergeRun first last rest with
  | case1 | case3 => exact Nat.le_refl _
  | case2 first last next rest merges ih => exact Nat.le_succ_of_le ih

theorem isChain_cons_simplifyFrom {turns : Nat} (enough : view.length ≤ turns) (fr : FlatRange)
    (apart : ∀ next ∈ view.head?, canMerge fr next = false) :
    (fr :: simplifyFrom turns view).IsChain fun r1 r2 => canMerge r1 r2 = false := by
  induction turns generalizing view fr with
  | zero =>
    rw [List.length_eq_zero_iff.mp (Nat.le_zero.mp enough)]
    exact .singleton fr
  | succ turns ih =>
    cases view with
    | nil => exact .singleton fr
    | cons first rest =>
      have fewer := Nat.le_trans (length_mergeRun_le first first rest) (Nat.le_of_succ_le_succ enough)
      rw [simplifyFrom, List.isChain_cons_cons, canMerge_mergeRun]
      exact ⟨apart first rfl, ih fewer _ (mergeRun_stops fun _ => rfl)⟩

theorem flatviewSimplify_isChain (view : FlatView) :
    (flatviewSimplify view).IsChain fun r1 r2 => canMerge r1 r2 = false := by
  cases view with
  | nil => exact .nil
  | cons first rest =>
    exact isChain_cons_simplifyFrom (length_mergeRun_le first first rest) _
      (mergeRun_stops fun _ => rfl)

/-- What an access at an address depends on: the region, the offset in it, `dirty_log_mask`,
`romd_mode`, `readonly` and `nonvolatile`. -/
def mappingAt (view : FlatView) (a : Int) : Option (MrId × Int × BitVec 8 × Bool × Bool × Bool) :=
  (lookup view a).map fun fr => (fr.mr, fr.offsetInRegion + (a - fr.addr.start), fr.dirtyLogMask,
    fr.romdMode, fr.readonly, fr.nonvolatile)

/-- Simplifying a view loses nothing and leaves nothing to merge. -/
theorem simplify_lossless_and_complete (sorted : SortedDisjoint view) :
    (∀ a, mappingAt (flatviewSimplify view) a = mappingAt view a) ∧
      SortedDisjoint (flatviewSimplify view) ∧
      (flatviewSimplify view).IsChain fun r1 r2 => canMerge r1 r2 = false := by
  rw [← and_assoc, and_comm (a := ∀ a, _)]
  refine ⟨flatviewSimplify_lookup_map (fun _ _ _ => rfl) (fun first next a merges => ?_) sorted,
    flatviewSimplify_isChain view⟩
  grind [canMerge, addrrangeEnd]

/-- Three ranges of one region become one, the range behind a gap stays. -/
theorem simplify_lossless_and_complete_three :
    let piece (start : Nat) : FlatRange := ⟨7, start, ⟨start, 16⟩, 0, true, false, false, false⟩
    let view := [piece 0, piece 16, piece 32, piece 64]
    flatviewSimplify view = [(piece 0).grow 32, piece 64] ∧
      mappingAt (flatviewSimplify view) 40 = mappingAt view 40 := by
  intro piece view
  refine ⟨by decide, (simplify_lossless_and_complete ⟨?_, ?_⟩).1 40⟩
  · decide
  · decide

/-- A view that says nothing about the address space is empty. -/
theorem Ordered.eq_nil_of_viewAt {view : FlatView} (ordered : Ordered view)
    (silent : ∀ a, 0 ≤ a → a < 2 ^ 64 → viewAt view a = none) : view = [] := by
  cases view with
  | nil => rfl
  | cons fr rest =>
    obtain ⟨⟨size, low, high⟩, _⟩ := ordered_cons_iff.mp ordered
    have inside : fr.addr.start ≤ fr.addr.start ∧ fr.addr.start < addrrangeEnd fr.addr := by
      unfold addrrangeEnd
      omega
    have known := silent fr.addr.start low (by omega)
    rw [viewAt_cons, if_pos inside] at known
    cases known

end QemuGzvm.Memory
