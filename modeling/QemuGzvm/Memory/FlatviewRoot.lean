import QemuGzvm.Memory.Simplify

/-!
Contract: `memory_region_get_flatview_root` of `system/memory.c`, by which address
spaces share one view.

Owns:
- the walk from a root through aliases and single children to the region whose
  view is used in its place;
- `skippedFlags`, the flags of the regions the walk passes over, which rendering
  the root would have passed on;
- the exact condition under which the shared view means what rendering the root
  means.

The walk checks sizes and alias offsets. It checks neither where the target is
mapped nor the flags of the regions it skips.
-/

namespace QemuGzvm.Memory

/-- The loop over the children: how many are enabled, up to two, and the child to
go on with. -/
def scanChildren (regions : Regions) (size : Nat) :
    List MrId → Nat → Option MrId → Nat × Option MrId
  | [], found, next => (found, next)
  | child :: children, found, next =>
    if (regions child).enabled then
      if found + 1 > 1 then (found + 1, none)
      else
        scanChildren regions size children (found + 1)
          (if (regions child).addr = 0 ∧ size ≥ (regions child).size then some child else next)
    else scanChildren regions size children found next

inductive RootTurn where
  | done (root : Option MrId)
  | next (mr : MrId)
deriving DecidableEq, Repr

def rootTurn (regions : Regions) (id : MrId) : RootTurn :=
  let mr := regions id
  if !mr.enabled then .done none
  else
    match mr.aliasRegion with
    | some target =>
      if mr.aliasOffset = 0 ∧ mr.size ≥ (regions target).size then .next target
      else .done (some id)
    | none =>
      if !mr.terminates then
        let scan := scanChildren regions mr.size mr.subregions 0 none
        if scan.1 = 0 then .done none
        else
          match scan.2 with
          | some child => .next child
          | none => .done (some id)
      else .done (some id)

def flatviewRootFrom (regions : Regions) : Nat → MrId → Option MrId
  | 0, _ => none
  | turns + 1, id =>
    match rootTurn regions id with
    | .done root => root
    | .next mr => flatviewRootFrom regions turns mr

/-- The flags of the regions passed over, added to `flags`. -/
def skippedFrom (regions : Regions) : Nat → MrId → RenderFlags → RenderFlags
  | 0, _, flags => flags
  | turns + 1, id, flags =>
    match rootTurn regions id with
    | .done _ => flags
    | .next mr => skippedFrom regions turns mr (flags.join (regions id))

namespace RegionGraph

variable (g : RegionGraph)

def memoryRegionGetFlatviewRoot (root : MrId) : Option MrId :=
  flatviewRootFrom g.region (g.rank root + 1) root

def skippedFlags (root : MrId) : RenderFlags :=
  skippedFrom g.region (g.rank root + 1) root {}

end RegionGraph

/-! ### Inherited flags -/

def RenderFlags.union (left right : RenderFlags) : RenderFlags where
  readonly := left.readonly || right.readonly
  nonvolatile := left.nonvolatile || right.nonvolatile
  unmergeable := left.unmergeable || right.unmergeable

def Resolution.inherit (flags : RenderFlags) (answer : Resolution) : Resolution :=
  { answer with flags := flags.union answer.flags }

theorem findSome?_map {α β γ : Type} (items : List α) (answer : α → Option β) (change : β → γ) :
    (items.findSome? fun item => (answer item).map change) =
      (items.findSome? answer).map change := by
  induction items with
  | nil => rfl
  | cons item items ih =>
    grind

/-- Flags from above only add to those of the answer. -/
theorem resolveFrom_inherit (regions : Regions) (depth : Nat) (id : MrId) (x : Int)
    (above flags : RenderFlags) :
    resolveFrom regions depth id x (above.union flags) =
      (resolveFrom regions depth id x flags).map (Resolution.inherit above) := by
  induction depth generalizing id x flags with
  | zero => rfl
  | succ depth ih =>
    have joined : (above.union flags).join (regions id) =
        above.union (flags.join (regions id)) := by
      simp [RenderFlags.join, RenderFlags.union, Bool.or_assoc]
    simp only [resolveFrom, joined]
    split
    · simp only [resolveInside]
      cases (regions id).aliasRegion with
      | some target => exact ih _ _ _
      | none =>
        simp only [ih, findSome?_map]
        cases (regions id).subregions.findSome? fun child =>
            resolveFrom regions depth child (x - (regions child).addr)
              (flags.join (regions id)) with
        | some answer => rfl
        | none =>
          cases (regions id).terminates with
          | true => rfl
          | false => rfl
    · rfl

namespace RegionGraph

variable (g : RegionGraph)

theorem resolve_inherit (id : MrId) (x : Int) (above : RenderFlags) :
    g.resolve id x above = (g.resolve id x {}).map (Resolution.inherit above) := by
  have unionNone : above = above.union {} := by simp [RenderFlags.union]
  unfold resolve
  rw [← resolveFrom_inherit, ← unionNone]

theorem resolve_outside {id : MrId} {x : Int} (flags : RenderFlags)
    (outside : (g.region id).enabled = false ∨ ¬(0 ≤ x ∧ x < (g.region id).size)) :
    g.resolve id x flags = none :=
  resolveFrom_eq_none g.region _ id flags outside

end RegionGraph

/-! ### One turn of the walk -/

variable {child : MrId} {children : List MrId} {regions : Regions} {size : Nat}

/-- After one enabled child, the scan ends with a child to go on with only if it
was that one and no other is enabled. -/
theorem scanChildren_after {found : Nat} {next : Option MrId}
    (scanned : (scanChildren regions size children (found + 1) next).2 = some child) :
    next = some child ∧ ∀ other ∈ children, (regions other).enabled = false := by
  induction children with
  | nil => exact ⟨scanned, by simp⟩
  | cons other children ih =>
    grind [scanChildren]

theorem scanChildren_pos (regions : Regions) (size found : Nat) (children : List MrId)
    (next : Option MrId) : 0 < (scanChildren regions size children (found + 1) next).1 := by
  induction children with
  | nil => exact Nat.succ_pos _
  | cons other children ih =>
    rw [scanChildren]
    split
    · rw [if_pos (by omega)]
      exact Nat.succ_pos _
    · exact ih

theorem scanChildren_none (scanned : (scanChildren regions size children 0 none).1 = 0) :
    ∀ child ∈ children, (regions child).enabled = false := by
  induction children with
  | nil => simp
  | cons child children ih =>
    rw [scanChildren] at scanned
    split at scanned
    case isTrue =>
      rw [if_neg (by omega)] at scanned
      exact absurd scanned (Nat.ne_of_gt (scanChildren_pos _ _ _ _ _))
    case isFalse disabled =>
      exact List.forall_mem_cons.mpr ⟨by simpa using disabled, ih scanned⟩

/-- The child to go on with is the only enabled one, fits and is mapped at zero. -/
theorem scanChildren_next (scanned : (scanChildren regions size children 0 none).2 = some child) :
    ∃ before after, children = before ++ child :: after ∧
      (∀ other ∈ before ++ after, (regions other).enabled = false) ∧
      (regions child).addr = 0 ∧ (regions child).size ≤ size := by
  induction children with
  | nil => cases scanned
  | cons head children ih =>
    rw [scanChildren] at scanned
    split at scanned
    case isTrue =>
      rw [if_neg (by omega)] at scanned
      obtain ⟨isNext, rest⟩ := scanChildren_after scanned
      split at isNext
      case isTrue fits =>
        cases isNext
        exact ⟨[], children, rfl, rest, fits⟩
      case isFalse => cases isNext
    case isFalse disabled =>
      grind

namespace RegionGraph

variable (g : RegionGraph) {id root : MrId} {a : Int}

theorem findSome?_disabled (children : List MrId)
    (disabled : ∀ child ∈ children, (g.region child).enabled = false) (x : Int)
    (flags : RenderFlags) :
    (children.findSome? fun child => g.resolve child (x - (g.region child).addr) flags) = none :=
  List.findSome?_eq_none_iff.mpr fun child member =>
    g.resolve_outside flags (Or.inl (disabled child member))

/-- A turn that goes on skips a region that adds nothing but its flags. -/
theorem rootTurn_next {mr : MrId} (turn : rootTurn g.region id = .next mr) :
    g.rank mr < g.rank id ∧
      ∀ x flags, g.resolve id x flags = g.resolve mr x (flags.join (g.region id)) := by
  -- What the skipped region covers includes what the next one covers.
  have skip : (g.region mr).size ≤ (g.region id).size → (g.region id).enabled = true →
      (∀ x flags, resolveInside g.region g.resolve id x flags = g.resolve mr x flags) →
      ∀ x flags, g.resolve id x flags = g.resolve mr x (flags.join (g.region id)) := by
    intro smaller enabled inner x flags
    rw [g.resolve_eq id]
    split
    · exact inner x _
    case isFalse outside =>
      refine (g.resolve_outside _ (Or.inr fun inside => outside ⟨enabled, ?_⟩)).symm
      omega
  have taken : (g.region id).enabled = true ∧
      ((g.region id).aliasRegion = some mr ∧ (g.region id).aliasOffset = 0 ∧
          (g.region mr).size ≤ (g.region id).size ∨
        (g.region id).aliasRegion = none ∧ (g.region id).terminates = false ∧
          (scanChildren g.region (g.region id).size (g.region id).subregions 0 none).2 =
            some mr) := by
    grind [rootTurn]
  obtain ⟨enabled, ⟨aliasEq, atZero, smaller⟩ | ⟨aliasEq, container, scanned⟩⟩ := taken
  · refine ⟨g.alias_rank id mr aliasEq, skip smaller enabled fun x flags => ?_⟩
    simp only [resolveInside, aliasEq, atZero]
    congr 1
    omega
  · obtain ⟨before, after, childrenEq, disabled, atZero, fits⟩ := scanChildren_next scanned
    have member : mr ∈ (g.region id).subregions := by
      rw [childrenEq]
      simp
    refine ⟨g.child_rank id mr member, skip fits enabled fun x flags => ?_⟩
    have beforeNone := g.findSome?_disabled before
      (fun other inBefore => disabled other (List.mem_append_left _ inBefore)) x flags
    have afterNone := g.findSome?_disabled after
      (fun other inAfter => disabled other (List.mem_append_right _ inAfter)) x flags
    simp only [resolveInside, aliasEq, container, childrenEq, List.findSome?_append,
      List.findSome?_cons, beforeNone, afterNone, atZero, Option.none_or]
    have atStart : x - ((0 : Nat) : Int) = x := by omega
    rw [atStart]
    cases g.resolve mr x flags <;> rfl

/-- A turn that returns `NULL` does so on a region that resolves nothing. -/
theorem rootTurn_done_none (turn : rootTurn g.region id = .done none) (x : Int)
    (flags : RenderFlags) : g.resolve id x flags = none := by
  have nothing : (g.region id).enabled = false ∨
      (g.region id).aliasRegion = none ∧ (g.region id).terminates = false ∧
        (scanChildren g.region (g.region id).size (g.region id).subregions 0 none).1 = 0 := by
    grind [rootTurn]
  obtain disabled | ⟨aliasEq, container, empty⟩ := nothing
  · exact g.resolve_outside flags (Or.inl disabled)
  · rw [g.resolve_eq id]
    split
    · simp only [resolveInside, aliasEq, container,
        g.findSome?_disabled _ (scanChildren_none empty)]
      rfl
    · rfl

theorem rootTurn_done_some (turn : rootTurn g.region id = .done (some root)) :
    root = id := by
  grind [rootTurn]

/-! ### The walk -/

theorem flatviewRootFrom_spec {turns : Nat} (enough : g.rank id < turns) :
    (flatviewRootFrom g.region turns id = none → ∀ x flags, g.resolve id x flags = none) ∧
      ∀ root, flatviewRootFrom g.region turns id = some root →
        ∀ x flags, g.resolve id x flags =
          g.resolve root x (skippedFrom g.region turns id flags) := by
  induction turns generalizing id with
  | zero => exact absurd enough (Nat.not_lt_zero _)
  | succ turns ih =>
    simp only [flatviewRootFrom, skippedFrom]
    cases turn : rootTurn g.region id with
    | done result =>
      refine ⟨?_, ?_⟩
      · rintro rfl
        exact g.rootTurn_done_none turn
      · rintro root rfl x flags
        rw [g.rootTurn_done_some turn]
    | next mr =>
      obtain ⟨lower, skips⟩ := g.rootTurn_next turn
      obtain ⟨nothing, something⟩ := ih (show g.rank mr < turns by omega)
      refine ⟨fun isNone x flags => ?_, fun root isRoot x flags => ?_⟩
      · rw [skips]
        exact nothing isNone x _
      · rw [skips]
        exact something root isRoot x _

/-- What the shared view says, in terms of the region it is rendered from. -/
theorem generateMemoryTopology_at (root : MrId) (low : 0 ≤ a) (high : a < 2 ^ 64) :
    viewAt (g.generateMemoryTopology (some root)) a =
      g.resolve root (a - (g.region root).addr) {} := by
  obtain ⟨ordered, answer⟩ := g.render_spec root a low high
  rw [generateMemoryTopology, (flatviewSimplify_spec ordered).2 a, answer]

theorem ordered_topology (mr : Option MrId) : Ordered (g.generateMemoryTopology mr) := by
  apply (flatviewSimplify_spec _).1
  cases mr with
  | none => exact ordered_nil
  | some root => exact (g.render_spec root 0 (by decide) (by decide)).1

/-- What rendering the root itself says, in terms of the region shared. -/
theorem render_at_shared {shared : MrId} (isRoot : g.memoryRegionGetFlatviewRoot root = some shared)
    (low : 0 ≤ a) (high : a < 2 ^ 64) :
    viewAt (g.render root) a =
      (g.resolve shared (a - (g.region root).addr) {}).map
        (Resolution.inherit (g.skippedFlags root)) := by
  rw [(g.render_spec root a low high).2,
    (g.flatviewRootFrom_spec (Nat.lt_succ_self _)).2 shared isRoot, g.resolve_inherit]
  rfl

end RegionGraph

/-- The parts of a resolution an access depends on. -/
def Resolution.meaning (answer : Resolution) : MrId × Int × Bool × Bool :=
  (answer.mr, answer.offset, answer.flags.readonly, answer.flags.nonvolatile)

/-- A set of non-negative numbers that looks the same after two different shifts
is empty below the bound. -/
theorem shifted_empty {present : Int → Prop} (support : ∀ x, present x → 0 ≤ x) {p q bound : Int}
    (pLow : 0 ≤ p) (less : p < q)
    (same : ∀ a, 0 ≤ a → a < bound → (present (a - p) ↔ present (a - q))) :
    ∀ a, 0 ≤ a → a < bound → ¬present (a - p) := by
  -- A least member would have a smaller one, by the difference of the shifts.
  have descend : ∀ (steps : Nat) (a : Int), 0 ≤ a → a < bound → a ≤ steps → ¬present (a - p) := by
    intro steps
    induction steps with
    | zero =>
      grind
    | succ steps ih =>
      intro a low high le there
      have moved := (same a low high).mp there
      have further := support _ moved
      refine ih (a - (q - p)) (by omega) (by omega) (by omega) ?_
      have sameByte : a - (q - p) - p = a - q := by omega
      rw [sameByte]
      exact moved
  exact fun a low high => descend a.toNat a low high (by omega)

/-- The shared view means what rendering the root means exactly when both say
nothing, or the shared region is mapped where the root is mapped and the flags of
the skipped regions are set on all that is visible anyway. Without a shared
region the root renders to nothing. -/
theorem shared_root_preserves_meaning_iff (g : RegionGraph) (root : MrId) :
    (g.memoryRegionGetFlatviewRoot root = none → g.render root = []) ∧
      ∀ shared, g.memoryRegionGetFlatviewRoot root = some shared →
        ((∀ a, 0 ≤ a → a < 2 ^ 64 →
            (viewAt (g.generateMemoryTopology (some shared)) a).map Resolution.meaning =
              (viewAt (g.render root) a).map Resolution.meaning) ↔
          (∀ a, 0 ≤ a → a < 2 ^ 64 →
            viewAt (g.generateMemoryTopology (some shared)) a = none ∧
              viewAt (g.render root) a = none) ∨
          (g.region root).addr = (g.region shared).addr ∧
            ∀ a answer, 0 ≤ a → a < 2 ^ 64 →
              viewAt (g.generateMemoryTopology (some shared)) a = some answer →
              ((g.skippedFlags root).readonly = true → answer.flags.readonly = true) ∧
                ((g.skippedFlags root).nonvolatile = true → answer.flags.nonvolatile = true)) := by
  constructor
  · intro isNull
    refine (g.render_spec root 0 (by decide) (by decide)).1.eq_nil_of_viewAt fun a low high => ?_
    rw [(g.render_spec root a low high).2]
    exact (g.flatviewRootFrom_spec (Nat.lt_succ_self _)).1 isNull _ _
  · intro shared isRoot
    have sharedAt := fun a low high => g.generateMemoryTopology_at shared (a := a) low high
    have rootAt := fun a low high => g.render_at_shared isRoot (a := a) low high
    constructor
    · intro same
      by_cases mapped : (g.region root).addr = (g.region shared).addr
      · refine Or.inr ⟨mapped, fun a answer low high seen => ?_⟩
        have equal := same a low high
        rw [seen, rootAt a low high, mapped, ← sharedAt a low high, seen] at equal
        simp only [Option.map_some, Option.some.injEq, Resolution.meaning, Resolution.inherit,
          RenderFlags.union, Prod.mk.injEq] at equal
        exact ⟨fun skipped => by rw [equal.2.2.1, skipped]; rfl,
          fun skipped => by rw [equal.2.2.2, skipped]; rfl⟩
      · left
        have support : ∀ x, (g.resolve shared x {}).isSome = true → 0 ≤ x := by
          intro x there
          by_contra negative
          rw [g.resolve_outside {} (Or.inr fun inside => negative inside.1)] at there
          cases there
        have agree : ∀ a, 0 ≤ a → a < 2 ^ 64 →
            ((g.resolve shared (a - (g.region shared).addr) {}).isSome = true ↔
              (g.resolve shared (a - (g.region root).addr) {}).isSome = true) := by
          intro a low high
          have equal := congrArg Option.isSome (same a low high)
          rw [sharedAt a low high, rootAt a low high] at equal
          simpa using equal
        have empty : ∀ a, 0 ≤ a → a < 2 ^ 64 →
            (g.resolve shared (a - (g.region shared).addr) {}).isSome ≠ true := by
          rcases Nat.lt_or_gt_of_ne mapped with lower | higher
          · intro a low high there
            exact shifted_empty support (Int.natCast_nonneg _) (Int.ofNat_lt.mpr lower)
              (fun b bLow bHigh => (agree b bLow bHigh).symm) a low high
              ((agree a low high).mp there)
          · exact shifted_empty support (Int.natCast_nonneg _) (Int.ofNat_lt.mpr higher) agree
        intro a low high
        have sharedNone := empty a low high
        have rootNone := fun there => sharedNone ((agree a low high).mpr there)
        rw [sharedAt a low high, rootAt a low high]
        exact ⟨by simpa using sharedNone, by simpa using rootNone⟩
    · rintro (silent | ⟨mapped, implied⟩) a low high
      · rw [(silent a low high).1, (silent a low high).2]
      · rw [rootAt a low high, mapped, ← sharedAt a low high]
        cases seen : viewAt (g.generateMemoryTopology (some shared)) a with
        | none => rfl
        | some answer =>
          obtain ⟨readonlySet, nonvolatileSet⟩ := implied a answer low high seen
          have readonlyEq : ((g.skippedFlags root).readonly || answer.flags.readonly) =
              answer.flags.readonly := by
            grind
          have nonvolatileEq : ((g.skippedFlags root).nonvolatile || answer.flags.nonvolatile) =
              answer.flags.nonvolatile := by
            grind
          simp [Resolution.meaning, Resolution.inherit, RenderFlags.union, readonlyEq,
              nonvolatileEq]

/-- Two roots whose shared view means something else. An alias at address zero of
RAM mapped at one gigabyte is rendered at one gigabyte; a read-only container
around RAM is rendered writable. -/
theorem shared_root_changes_meaning :
    let aliased := RegionGraph.ofTable
      [{ addr := 2 ^ 30, size := 2 ^ 20, ram := true, terminates := true },
        { size := 2 ^ 20, aliasRegion := some 0 }] (by decide)
    let wrapped := RegionGraph.ofTable
      [{ size := 4096, ram := true, terminates := true },
        { size := 4096, readonly := true, subregions := [0] }] (by decide)
    (aliased.memoryRegionGetFlatviewRoot 1 = some 0 ∧
      viewAt (aliased.generateMemoryTopology (some 0)) 0 = none ∧
      viewAt (aliased.render 1) 0 = some ⟨0, 0, {}⟩) ∧
    (wrapped.memoryRegionGetFlatviewRoot 1 = some 0 ∧
      viewAt (wrapped.generateMemoryTopology (some 0)) 0 = some ⟨0, 0, {}⟩ ∧
      viewAt (wrapped.render 1) 0 = some ⟨0, 0, { readonly := true }⟩) := by
  decide

end QemuGzvm.Memory
