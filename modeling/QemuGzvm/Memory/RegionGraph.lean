import QemuGzvm.Library.Rank
import QemuGzvm.Memory.Resolve

/-!
Contract: rendering a heap of regions is priority resolution.

Owns:
- `RegionGraph`, a heap of regions without cycles, with the rank that shows it,
  and the two ways to get one: from a well-founded heap and from a table;
- `RegionGraph.resolve` with its recursion equation, in which no depth appears;
- `RegionGraph.render`, and that it says of each address what `resolve` says.
-/

namespace QemuGzvm.Memory

/-- A heap of memory regions: sizes are at most `2^64`, and following aliases and
subregions comes to an end. -/
structure RegionGraph where
  region : Regions
  size_le : ∀ id, (region id).size ≤ 2 ^ 64
  rank : MrId → Nat
  alias_rank : ∀ id target, (region id).aliasRegion = some target → rank target < rank id
  child_rank : ∀ id child, child ∈ (region id).subregions → rank child < rank id

/-- `child` is the alias target or a subregion of `parent`. -/
def Below (regions : Regions) (child parent : MrId) : Prop :=
  (regions parent).aliasRegion = some child ∨ child ∈ (regions parent).subregions

/-- Every heap without cycles is a region graph. -/
noncomputable def RegionGraph.ofAcyclic (regions : Regions)
    (sizes : ∀ id, (regions id).size ≤ 2 ^ 64) (acyclic : WellFounded (Below regions)) :
    RegionGraph :=
  have ranked := Library.exists_rank acyclic
    (fun parent => (regions parent).aliasRegion.toList ++ (regions parent).subregions)
    (fun child parent isBelow => by simpa [Below] using isBelow)
  { region := regions
    size_le := sizes
    rank := ranked.choose
    alias_rank := fun id target isAlias => ranked.choose_spec target id (Or.inl isAlias)
    child_rank := fun id child member => ranked.choose_spec child id (Or.inr member) }

/-- Each region of a table refers only to regions before it. -/
def tableOk (table : List MemoryRegion) : Bool :=
  table.zipIdx.all fun (mr, id) =>
    decide (mr.size ≤ 2 ^ 64) && mr.aliasRegion.all (fun target => decide (target < id)) &&
      mr.subregions.all fun child => decide (child < id)

theorem tableOk_getD {table : List MemoryRegion} (ok : tableOk table = true) (id : MrId) :
    (table.getD id {}).size ≤ 2 ^ 64 ∧
      (∀ target, (table.getD id {}).aliasRegion = some target → target < id) ∧
      ∀ child ∈ (table.getD id {}).subregions, child < id := by
  by_cases inside : id < table.length
  · have entry := List.all_eq_true.mp ok (table[id], id)
      (by simp [List.mem_zipIdx_iff_getElem?, inside])
    simp only [Bool.and_eq_true, decide_eq_true_eq, Option.all_eq_true, List.all_eq_true] at entry
    rw [List.getD_eq_getElem?_getD, List.getElem?_eq_getElem inside, Option.getD_some]
    exact ⟨entry.1.1, entry.1.2, entry.2⟩
  · rw [List.getD_eq_getElem?_getD, List.getElem?_eq_none (Nat.le_of_not_lt inside)]
    exact ⟨Nat.zero_le _, fun _ isAlias => (nomatch isAlias), fun _ member => (nomatch member)⟩

def RegionGraph.ofTable (table : List MemoryRegion) (ok : tableOk table = true) : RegionGraph where
  region := fun id => table.getD id {}
  size_le := fun id => (tableOk_getD ok id).1
  rank := id
  alias_rank := fun id => (tableOk_getD ok id).2.1
  child_rank := fun id => (tableOk_getD ok id).2.2

namespace RegionGraph

variable (g : RegionGraph) {id : MrId} {depth : Nat}

/-- What byte `x` of a region means, with flags inherited from above. -/
def resolve (id : MrId) (x : Int) (flags : RenderFlags) : Option Resolution :=
  resolveFrom g.region (g.rank id + 1) id x flags

/-- The view rendered from a root, before it is simplified. -/
def render (root : MrId) : FlatView :=
  renderMemoryRegion g.region (g.rank root + 1) [] root 0 (addrrangeMake 0 (2 ^ 64)) {}

theorem resolveInside_congr {first second : MrId → Int → RenderFlags → Option Resolution}
    (agree : ∀ below, g.rank below < g.rank id → first below = second below) (x : Int)
    (flags : RenderFlags) :
    resolveInside g.region first id x flags = resolveInside g.region second id x flags := by
  simp only [resolveInside]
  cases aliasEq : (g.region id).aliasRegion with
  | some target =>
    simp only
    rw [agree target (g.alias_rank id target aliasEq)]
  | none =>
    simp only
    congr 1
    have children : ∀ items : List MrId, (∀ child ∈ items, g.rank child < g.rank id) →
        (items.findSome? fun child => first child (x - (g.region child).addr) flags) =
          items.findSome? fun child => second child (x - (g.region child).addr) flags := by
      intro items lower
      induction items with
      | nil => rfl
      | cons child items ih =>
        rw [List.findSome?_cons, List.findSome?_cons, agree child (lower child (by simp)),
          ih fun other member => lower other (List.mem_cons_of_mem _ member)]
    exact children _ (g.child_rank id)

theorem resolveFrom_enough (enough : g.rank id < depth) :
    resolveFrom g.region depth id = g.resolve id := by
  refine Library.eq_of_rank_lt (fun first second id agree => ?_) enough (Nat.lt_succ_self _)
  funext x flags
  simp only [resolveFrom]
  split
  · exact g.resolveInside_congr agree x _
  · rfl

theorem resolve_eq (id : MrId) (x : Int) (flags : RenderFlags) :
    g.resolve id x flags =
      if (g.region id).enabled = true ∧ 0 ≤ x ∧ x < (g.region id).size then
        resolveInside g.region g.resolve id x (flags.join (g.region id))
      else none := by
  rw [resolve, resolveFrom]
  congr 1
  exact g.resolveInside_congr (fun below lower => g.resolveFrom_enough lower) x _

theorem render_enough (enough : g.rank id < depth) (view : FlatView) (base : Int)
    (clip : AddrRange) (flags : RenderFlags) :
    renderMemoryRegion g.region depth view id base clip flags =
      renderMemoryRegion g.region (g.rank id + 1) view id base clip flags := by
  refine congrFun (Library.eq_of_rank_lt
    (f := fun depth id (inputs : FlatView × Int × AddrRange × RenderFlags) =>
      renderMemoryRegion g.region depth inputs.1 id inputs.2.1 inputs.2.2.1 inputs.2.2.2)
    (fun first second id agree => ?_) enough (Nat.lt_succ_self _)) (view, base, clip, flags)
  have below lower isLower view base clip flags :=
    congrFun (agree lower isLower) (view, base, clip, flags)
  funext ⟨view, base, clip, flags⟩
  simp only [renderMemoryRegion, renderClipped]
  cases aliasEq : (g.region id).aliasRegion with
  | some target => simp only [below target (g.alias_rank id target aliasEq)]
  | none =>
    have children (view : FlatView) (base : Int) (clip : AddrRange) (flags : RenderFlags) :=
      List.foldl_ext
        (fun view child => renderMemoryRegion g.region first view child base clip flags)
        (fun view child => renderMemoryRegion g.region second view child base clip flags)
        view fun view child member => below child (g.child_rank id child member) view _ _ _
    simp only [children]

theorem render_spec (root : MrId) (a : Int) (low : 0 ≤ a) (high : a < 2 ^ 64) :
    Ordered (g.render root) ∧
      viewAt (g.render root) a = g.resolve root (a - (g.region root).addr) {} := by
  have whole : ClipOk (addrrangeMake 0 (2 ^ 64)) :=
    ⟨by decide, by decide, by decide⟩
  obtain ⟨ordered, answer⟩ := render_adds g.region g.size_le a (g.rank root + 1) [] root 0
    (addrrangeMake 0 (2 ^ 64)) {} ordered_nil whole
  refine ⟨ordered, ?_⟩
  have inside : (addrrangeMake 0 (2 ^ 64)).start ≤ a ∧
      a < addrrangeEnd (addrrangeMake 0 (2 ^ 64)) := by
    simp only [addrrangeMake, addrrangeEnd]
    omega
  rw [if_pos inside, Int.sub_zero] at answer
  exact answer

/-- Rendering is priority resolution: the view is sorted and disjoint, at most one
range contains an address, and there is one exactly when the address resolves;
it then says what the resolution says. -/
theorem render_is_priority_resolution (root : MrId) (a : Int) (low : 0 ≤ a) (high : a < 2 ^ 64) :
    Ordered (g.render root) ∧
      ((g.render root).filter fun fr => addrrangeContains fr.addr a).length ≤ 1 ∧
      ∀ answer, g.resolve root (a - (g.region root).addr) {} = some answer ↔
        ∃ fr ∈ g.render root, addrrangeContains fr.addr a = true ∧ fr.resolution a = answer := by
  obtain ⟨ordered, answerEq⟩ := g.render_spec root a low high
  refine ⟨ordered, ordered.filter_contains_length_le a, fun answer => ?_⟩
  rw [← answerEq, viewAt, Option.map_eq_some_iff]
  constructor
  · rintro ⟨fr, found, rfl⟩
    obtain ⟨member, inside⟩ := lookup_some found
    exact ⟨fr, member, addrrangeContains_iff.mpr inside, rfl⟩
  · rintro ⟨fr, member, inside, rfl⟩
    rw [addrrangeContains_iff] at inside
    exact ⟨fr, ordered.lookup_eq member inside.1 inside.2, rfl⟩

/-- A page of RAM seen read-only through an alias at address zero, in a container
that also maps the RAM itself. -/
theorem render_is_priority_resolution_alias :
    let g := RegionGraph.ofTable
      [{ addr := 8192, size := 8192, ram := true, terminates := true },
        { size := 4096, aliasRegion := some 0, aliasOffset := 4096, readonly := true },
        { size := 2 ^ 64, subregions := [1, 0] }] (by decide)
    ∃ fr ∈ g.render 2, addrrangeContains fr.addr 5 = true ∧
      fr.resolution 5 = ⟨0, 4101, ⟨true, false, false⟩⟩ := by
  intro g
  exact ((g.render_is_priority_resolution 2 5 (by decide) (by decide)).2.2 _).mp (by decide)

end RegionGraph

end QemuGzvm.Memory
