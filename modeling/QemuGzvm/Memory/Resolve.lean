import QemuGzvm.Memory.Render

/-!
Contract: what a region says about one address, and what rendering it adds to a
view.

Owns:
- `resolveFrom`, the abstract side: follow the alias, or the first child in list
  order that resolves the byte, or the region itself if it terminates;
- `viewAt`, what a view says about an address, and how the gap-filling loop
  changes it;
- `render_adds`, by which one call of `render_memory_region` adds to a view
  exactly the resolution of the addresses of its clip that the view does not have.

The abstract side looks at one address at a time and never at a view.
-/

namespace QemuGzvm.Memory

structure Resolution where
  mr : MrId
  offset : Int
  flags : RenderFlags
deriving DecidableEq, Repr

def FlatRange.resolution (fr : FlatRange) (a : Int) : Resolution where
  mr := fr.mr
  offset := fr.offsetInRegion + (a - fr.addr.start)
  flags := ⟨fr.readonly, fr.nonvolatile, fr.unmergeable⟩

def viewAt (view : FlatView) (a : Int) : Option Resolution :=
  (lookup view a).map fun fr => fr.resolution a

/-- What a byte inside a region resolves to. `resolve` is the recursive call. -/
def resolveInside (regions : Regions)
    (resolve : MrId → Int → RenderFlags → Option Resolution) (id : MrId) (x : Int)
    (flags : RenderFlags) : Option Resolution :=
  let mr := regions id
  match mr.aliasRegion with
  | some target => resolve target (x + mr.aliasOffset) flags
  | none =>
    (mr.subregions.findSome? fun child => resolve child (x - (regions child).addr) flags).or
      (if mr.terminates then some ⟨id, x, flags⟩ else none)

/-- Resolve the byte `x` of a region, down to `depth` levels. -/
def resolveFrom (regions : Regions) : Nat → MrId → Int → RenderFlags → Option Resolution
  | 0, _, _, _ => none
  | depth + 1, id, x, flags =>
    let mr := regions id
    if mr.enabled = true ∧ 0 ≤ x ∧ x < mr.size then
      resolveInside regions (resolveFrom regions depth) id x (flags.join mr)
    else none

/-! ### Lookups in a filled view -/

theorem viewAt_cons (fr : FlatRange) (view : FlatView) (a : Int) :
    viewAt (fr :: view) a =
      if fr.addr.start ≤ a ∧ a < addrrangeEnd fr.addr then some (fr.resolution a)
      else viewAt view a := by
  simp only [viewAt, lookup, List.find?_cons]
  by_cases inside : fr.addr.start ≤ a ∧ a < addrrangeEnd fr.addr
  · rw [if_pos inside, addrrangeContains_iff.mpr inside]
    rfl
  · rw [if_neg inside, Bool.eq_false_iff.mpr (fun contains =>
      inside (addrrangeContains_iff.mp contains))]

theorem viewAt_eq_none_of_lt {view : FlatView} {a bound : Int} (below : a < bound)
    (above : ∀ fr ∈ view, bound ≤ fr.addr.start) : viewAt view a = none := by
  have absent : lookup view a = none := by
    rw [lookup_eq_none]
    intro fr member inside
    have := above fr member
    omega
  rw [viewAt, absent]
  rfl

/-- A piece of `fr` cut out at `base`, in front of a view; `origin` is the address
of the first byte of the region. -/
theorem viewAt_rangePiece_cons (fr : FlatRange) {offset : Nat} {base size origin : Int}
    (offsetEq : (offset : Int) = base - origin) (view : FlatView) (a : Int) :
    viewAt (rangePiece fr offset base size :: view) a =
      if base ≤ a ∧ a < base + size then
        some ⟨fr.mr, a - origin, ⟨fr.readonly, fr.nonvolatile, fr.unmergeable⟩⟩
      else viewAt view a := by
  have resolutionEq : (rangePiece fr offset base size).resolution a =
      ⟨fr.mr, a - origin, ⟨fr.readonly, fr.nonvolatile, fr.unmergeable⟩⟩ := by
    simp only [FlatRange.resolution, rangePiece, addrrangeMake, offsetEq]
    congr 1
    omega
  rw [viewAt_cons, resolutionEq]
  rfl

/-- Adding `now` to the offset keeps it in step with the base, as long as
something remains. -/
theorem advance_offset {offset : Nat} {base remain origin now : Int}
    (offsetEq : (offset : Int) = base - origin) (high : base + remain - origin ≤ 2 ^ 64)
    (nowLow : 0 ≤ now) (nowLe : now < remain) :
    (((offset + int128GetLo now) % 2 ^ 64 : Nat) : Int) = base + now - origin := by
  have lowEq : (int128GetLo now : Int) = now := int128GetLo_of_range nowLow (by omega)
  have small : offset + int128GetLo now < 2 ^ 64 := by omega
  rw [Nat.mod_eq_of_lt small]
  omega

theorem Ordered.head_lt_end {range : FlatRange} {ranges : FlatView}
    (ordered : Ordered (range :: ranges)) : range.addr.start < addrrangeEnd range.addr := by
  have := ordered.nonempty range List.mem_cons_self
  unfold addrrangeEnd
  omega

section Fill

variable (fr : FlatRange)

/-- Nothing the loop puts in starts below `bound`. -/
theorem fillRanges_start {bound : Int} (ranges : FlatView) (base remain : Int) (offset : Nat)
    (remainLow : 0 ≤ remain) (baseLow : remain ≠ 0 → bound ≤ base)
    (low : ∀ r ∈ ranges, bound ≤ r.addr.start) :
    ∀ r ∈ fillRanges fr ranges base remain offset, bound ≤ r.addr.start := by
  fun_induction fillRanges fr ranges base remain offset with
  | case1 base remain offset left =>
    rw [List.forall_mem_singleton]
    exact baseLow left
  | case2 | case3 => exact low
  | case4 range ranges base remain offset left behind ih =>
    rw [List.forall_mem_cons] at low ⊢
    exact ⟨low.1, ih remainLow baseLow low.2⟩
  | case5 range ranges base remain offset left ahead gap now past ih =>
    rw [List.forall_mem_cons] at low
    rw [List.forall_mem_cons, List.forall_mem_cons]
    exact ⟨baseLow left, low.1, ih (by omega) (by omega) low.2⟩
  | case6 range ranges base remain offset left ahead noGap past ih =>
    rw [List.forall_mem_cons] at low ⊢
    exact ⟨low.1, ih (by omega) (by omega) low.2⟩

theorem fillRanges_ordered (ranges : FlatView) (base remain : Int) (offset : Nat)
    (ordered : Ordered ranges) (baseLow : 0 ≤ base) (remainLow : 0 ≤ remain)
    (high : base + remain ≤ 2 ^ 64) : Ordered (fillRanges fr ranges base remain offset) := by
  fun_induction fillRanges fr ranges base remain offset with
  | case1 base remain offset left =>
    rw [ordered_cons_iff]
    simp only [rangePiece, addrrangeMake, addrrangeEnd, List.not_mem_nil, false_implies,
      implies_true, true_and]
    exact ⟨⟨by omega, baseLow, high⟩, ordered_nil⟩
  | case2 | case3 => exact ordered
  | case4 range ranges base remain offset left behind ih =>
    rw [ordered_cons_iff] at ordered ⊢
    exact ⟨ordered.1, fillRanges_start fr ranges _ _ _ remainLow (fun _ => behind) ordered.2.1,
      ih ordered.2.2 baseLow remainLow high⟩
  | case5 range ranges base remain offset left ahead gap now past ih =>
    have stop := ordered.head_lt_end
    rw [ordered_cons_iff] at ordered
    obtain ⟨rangeOk, apart, rest⟩ := ordered
    have behind (offset : Nat) := fillRanges_start fr ranges (base + now + past)
      (remain - now - past) offset (by omega) (by omega) apart
    rw [ordered_cons_iff, ordered_cons_iff, List.forall_mem_cons]
    refine ⟨?_, ⟨?_, fun later member => ?_⟩, rangeOk, behind _, ih rest (by omega) (by omega)
      (by omega)⟩
    all_goals simp only [rangePiece, addrrangeMake, addrrangeEnd]
    · omega
    · omega
    · exact Int.le_trans (by omega) (behind _ later member)
  | case6 range ranges base remain offset left ahead noGap past ih =>
    rw [ordered_cons_iff] at ordered ⊢
    exact ⟨ordered.1, fillRanges_start fr ranges _ _ _ (by omega) (by omega) ordered.2.1,
      ih ordered.2.2 (by omega) (by omega) (by omega)⟩

/-- The loop adds what the view does not have yet of `[base, base + remain)`. -/
theorem viewAt_fillRanges (ranges : FlatView) (base remain : Int) (offset : Nat) (origin a : Int)
    (ordered : Ordered ranges) (remainLow : 0 ≤ remain)
    (offsetEq : remain ≠ 0 → (offset : Int) = base - origin)
    (high : remain ≠ 0 → base + remain - origin ≤ 2 ^ 64) :
    viewAt (fillRanges fr ranges base remain offset) a =
      (viewAt ranges a).or
        (if base ≤ a ∧ a < base + remain then
          some ⟨fr.mr, a - origin, ⟨fr.readonly, fr.nonvolatile, fr.unmergeable⟩⟩
        else none) := by
  fun_induction fillRanges fr ranges base remain offset with
  | case1 base remain offset left =>
    rw [viewAt_rangePiece_cons fr (offsetEq left)]
    rfl
  | case2 base remain offset done =>
    rw [if_neg (by omega)]
    rfl
  | case3 => rw [if_neg (by omega), Option.or_none]
  | case4 range ranges base remain offset left behind ih =>
    rw [viewAt_cons, viewAt_cons, ih ordered.tail remainLow offsetEq high]
    split <;> rfl
  | case5 range ranges base remain offset left ahead gap now past ih =>
    have stop := ordered.head_lt_end
    -- the piece lies before every range, so the view says nothing there
    have before : ∀ r ∈ range :: ranges, base + now ≤ r.addr.start := by
      intro r member
      have := ordered.head_le member
      omega
    have high := high left
    have advanced (more : now < remain) :=
      advance_offset (offsetEq left) high (by omega) more
    rw [viewAt_rangePiece_cons fr (offsetEq left)]
    by_cases inPiece : base ≤ a ∧ a < base + now
    · rw [if_pos inPiece, viewAt_eq_none_of_lt inPiece.2 before, if_pos (by omega)]
      rfl
    · rw [if_neg inPiece, viewAt_cons, viewAt_cons, ih ordered.tail (by omega)
        (fun more => advance_offset (advanced (by omega))
          (show base + now + (remain - now) - origin ≤ 2 ^ 64 by omega) (by omega) (by omega))
        (by omega)]
      split
      · rfl
      · congr 2
        grind
  | case6 range ranges base remain offset left ahead noGap past ih =>
    have stop := ordered.head_lt_end
    have high := high left
    rw [viewAt_cons, viewAt_cons, ih ordered.tail (by omega)
      (fun more => advance_offset (offsetEq left) high (by omega) (by omega)) (by omega)]
    split
    · rfl
    · congr 2
      grind

end Fill

/-! ### One region -/

structure ClipOk (clip : AddrRange) : Prop where
  size : 0 ≤ clip.size
  low : 0 ≤ clip.start
  high : addrrangeEnd clip ≤ 2 ^ 64

theorem ClipOk.intersection {clip tmp : AddrRange} (ok : ClipOk clip) (tmpSize : 0 ≤ tmp.size)
    (meets : addrrangeIntersects tmp clip = true) : ClipOk (addrrangeIntersection tmp clip) := by
  refine ⟨addrrangeIntersection_size_nonneg tmpSize ok.size meets, ?_, ?_⟩
  · have := ok.low
    simp only [addrrangeIntersection, addrrangeMake]
    omega
  · have := ok.high
    simp only [addrrangeIntersection, addrrangeMake, addrrangeEnd] at this ⊢
    omega

theorem renderTerminal_at (view : FlatView) (fr : FlatRange) (base : Int) (clip : AddrRange)
    (a : Int) (ordered : Ordered view) (clipOk : ClipOk clip)
    (inside : clip.size ≠ 0 → base ≤ clip.start ∧ addrrangeEnd clip - base ≤ 2 ^ 64) :
    Ordered (renderTerminal view fr base clip) ∧
      viewAt (renderTerminal view fr base clip) a =
        (viewAt view a).or
          (if clip.start ≤ a ∧ a < addrrangeEnd clip then
            some ⟨fr.mr, a - base, ⟨fr.readonly, fr.nonvolatile, fr.unmergeable⟩⟩
          else none) := by
  obtain ⟨size, low, high⟩ := clipOk
  unfold addrrangeEnd at inside high
  rw [renderTerminal_eq]
  refine ⟨fillRanges_ordered fr view _ _ _ ordered low size high,
    viewAt_fillRanges fr view _ _ _ base a ordered size ?_ ?_⟩
  · intro left
    exact int128GetLo_of_range (by have := inside left; omega) (by have := inside left; omega)
  · exact fun left => (inside left).2

/-- A resolution exists only inside the region. -/
theorem resolveFrom_eq_none (regions : Regions) (depth : Nat) (id : MrId) {x : Int}
    (flags : RenderFlags)
    (outside : (regions id).enabled = false ∨ ¬(0 ≤ x ∧ x < (regions id).size)) :
    resolveFrom regions depth id x flags = none := by
  cases depth with
  | zero => rfl
  | succ depth =>
    rw [resolveFrom]
    apply if_neg
    rintro ⟨enabled, inside⟩
    rcases outside with disabled | notInside
    · rw [disabled] at enabled
      exact Bool.noConfusion enabled
    · exact notInside inside

/-- Calls that each add their answer to the view: the first answer wins. -/
theorem foldl_viewAt {α : Type} (call : FlatView → α → FlatView) (answer : α → Option Resolution)
    (a : Int)
    (adds : ∀ view item, Ordered view → Ordered (call view item) ∧
      viewAt (call view item) a = (viewAt view a).or (answer item))
    (items : List α) (view : FlatView) (ordered : Ordered view) :
    Ordered (items.foldl call view) ∧
      viewAt (items.foldl call view) a = (viewAt view a).or (items.findSome? answer) := by
  induction items generalizing view with
  | nil => simp [ordered]
  | cons item items ih =>
    obtain ⟨stepOrdered, stepAt⟩ := adds view item ordered
    obtain ⟨restOrdered, restAt⟩ := ih (call view item) stepOrdered
    refine ⟨restOrdered, ?_⟩
    rw [List.foldl_cons, restAt, stepAt, Option.or_assoc, List.findSome?_cons]
    cases answer item <;> rfl

section Render

variable {regions : Regions} {a : Int}
  {render : FlatView → MrId → Int → AddrRange → RenderFlags → FlatView}
  {resolve : MrId → Int → RenderFlags → Option Resolution}

/-- The call adds the resolution of what the view does not have yet of its clip. -/
def Adds (regions : Regions) (a : Int)
    (render : FlatView → MrId → Int → AddrRange → RenderFlags → FlatView)
    (resolve : MrId → Int → RenderFlags → Option Resolution) : Prop :=
  ∀ view id base clip flags, Ordered view → ClipOk clip →
    Ordered (render view id base clip flags) ∧
      viewAt (render view id base clip flags) a =
        (viewAt view a).or
          (if clip.start ≤ a ∧ a < addrrangeEnd clip then
            resolve id (a - base - (regions id).addr) flags
          else none)

theorem renderClipped_at (adds : Adds regions a render resolve) (view : FlatView) (id : MrId)
    (base : Int) (clip : AddrRange) (flags : RenderFlags) (ordered : Ordered view)
    (clipOk : ClipOk clip)
    (inside : clip.size ≠ 0 → base ≤ clip.start ∧ addrrangeEnd clip - base ≤ 2 ^ 64) :
    Ordered (renderClipped regions render view id base clip flags) ∧
      viewAt (renderClipped regions render view id base clip flags) a =
        (viewAt view a).or
          (if clip.start ≤ a ∧ a < addrrangeEnd clip then
            resolveInside regions resolve id (a - base) flags
          else none) := by
  simp only [renderClipped, resolveInside]
  cases (regions id).aliasRegion with
  | some target =>
    obtain ⟨stepOrdered, stepAt⟩ := adds view target
      (base - (regions target).addr - (regions id).aliasOffset) clip flags ordered clipOk
    refine ⟨stepOrdered, ?_⟩
    have shifted : a - (base - (regions target).addr - (regions id).aliasOffset) -
        (regions target).addr = a - base + (regions id).aliasOffset := by omega
    rw [shifted] at stepAt
    exact stepAt
  | none =>
    obtain ⟨childOrdered, childAt⟩ := foldl_viewAt
      (fun view child => render view child base clip flags)
      (fun child => if clip.start ≤ a ∧ a < addrrangeEnd clip then
        resolve child (a - base - (regions child).addr) flags else none) a
      (fun view child viewOrdered => adds view child base clip flags viewOrdered clipOk)
      (regions id).subregions view ordered
    have nobody : (regions id).subregions.findSome?
        (fun _ => (none : Option Resolution)) = none :=
      List.findSome?_eq_none_iff.mpr fun _ _ => rfl
    cases (regions id).terminates with
    | false =>
      refine ⟨childOrdered, ?_⟩
      simp only [Bool.not_false, if_true, Bool.false_eq_true, if_false, Option.or_none, childAt]
      split <;> simp [nobody]
    | true =>
      simp only [Bool.not_true, Bool.false_eq_true, if_false, if_true]
      obtain ⟨selfOrdered, selfAt⟩ := renderTerminal_at
        ((regions id).subregions.foldl
          (fun view child => render view child base clip flags) view) _ base clip a
        childOrdered clipOk inside
      refine ⟨selfOrdered, ?_⟩
      rw [selfAt, childAt, Option.or_assoc]
      split <;> simp [nobody]

/-- One level of `render_memory_region` and one level of resolution. -/
theorem render_adds (regions : Regions) (sizes : ∀ id, (regions id).size ≤ 2 ^ 64) (a : Int)
    (depth : Nat) :
    Adds regions a (renderMemoryRegion regions depth) (resolveFrom regions depth) := by
  induction depth with
  | zero =>
    intro view id base clip flags ordered _
    refine ⟨ordered, ?_⟩
    simp [renderMemoryRegion, resolveFrom]
  | succ depth ih =>
    intro view id base clip flags ordered clipOk
    have unchanged : (clip.start ≤ a ∧ a < addrrangeEnd clip →
        resolveFrom regions (depth + 1) id (a - base - (regions id).addr) flags = none) →
        viewAt view a = (viewAt view a).or
          (if clip.start ≤ a ∧ a < addrrangeEnd clip then
            resolveFrom regions (depth + 1) id (a - base - (regions id).addr) flags
          else none) := by
      intro absent
      split
      · rw [absent ‹_›, Option.or_none]
      · rw [Option.or_none]
    rw [renderMemoryRegion]
    cases enabled : (regions id).enabled with
    | false =>
      exact ⟨ordered, unchanged fun _ => resolveFrom_eq_none _ _ _ _ (Or.inl enabled)⟩
    | true =>
      simp only [Bool.not_true, Bool.false_eq_true, if_false]
      cases meets : addrrangeIntersects
          (addrrangeMake (base + (regions id).addr) (regions id).size) clip with
      | false =>
        simp only [Bool.not_false, if_true]
        refine ⟨ordered, unchanged fun inClip => ?_⟩
        refine resolveFrom_eq_none _ _ _ _ (Or.inr fun inside => ?_)
        have inRegion : addrrangeContains
            (addrrangeMake (base + (regions id).addr) (regions id).size) a = true := by
          rw [addrrangeContains_iff]
          simp only [addrrangeMake, addrrangeEnd]
          omega
        have notInClip := not_contains_of_not_intersects meets inRegion
        rw [addrrangeContains_iff.mpr inClip] at notInClip
        exact Bool.noConfusion notInClip
      | true =>
        simp only [Bool.not_true, Bool.false_eq_true, if_false]
        obtain ⟨stepOrdered, stepAt⟩ := renderClipped_at ih view id
          (base + (regions id).addr) _ (flags.join (regions id)) ordered
          (clipOk.intersection (Int.natCast_nonneg (regions id).size) meets)
          (by
            have small := sizes id
            simp only [addrrangeIntersection, addrrangeMake, addrrangeEnd]
            omega)
        refine ⟨stepOrdered, stepAt.trans ?_⟩
        congr 1
        have inner : (addrrangeIntersection
              (addrrangeMake (base + (regions id).addr) (regions id).size) clip).start ≤ a ∧
            a < addrrangeEnd (addrrangeIntersection
              (addrrangeMake (base + (regions id).addr) (regions id).size) clip) ↔
            (clip.start ≤ a ∧ a < addrrangeEnd clip) ∧
              0 ≤ a - base - (regions id).addr ∧
              a - base - (regions id).addr < (regions id).size := by
          rw [← addrrangeContains_iff, addrrangeIntersection_contains,
            addrrangeContains_iff, addrrangeContains_iff]
          simp only [addrrangeMake, addrrangeEnd]
          omega
        simp only [inner, resolveFrom, enabled, true_and, ← Int.sub_sub, ite_and]

end Render

end QemuGzvm.Memory
