import QemuGzvm.Memory.FlatView

/-!
Contract: `render_memory_region` of `system/memory.c`.

Owns:
- the recursion over aliases and subregions, on a depth that bounds the nesting;
- the loop that fills the gaps of the view with pieces of one region, which
  inserts into the view while it walks it;
- what the loop does, seen on the ranges it has not passed yet.

Addresses and bases are `Int128` in the source and may go negative; they are
integers here. `int128_get64` is read as truncation: it asserts in the source,
and the values it is applied to here fit.
-/

namespace QemuGzvm.Memory

structure RenderFlags where
  readonly : Bool := false
  nonvolatile : Bool := false
  unmergeable : Bool := false
deriving DecidableEq, Repr

def RenderFlags.join (flags : RenderFlags) (mr : MemoryRegion) : RenderFlags where
  readonly := flags.readonly || mr.readonly
  nonvolatile := flags.nonvolatile || mr.nonvolatile
  unmergeable := flags.unmergeable || mr.unmergeable

/-! ### Filling the gaps -/

structure FillState where
  view : FlatView
  i : Nat
  base : Int
  remain : Int
  offsetInRegion : Nat

def rangePiece (fr : FlatRange) (offset : Nat) (base size : Int) : FlatRange :=
  { fr with offsetInRegion := offset, addr := addrrangeMake base size }

def FillState.advance (s : FillState) (now : Int) : FillState :=
  { s with
    base := s.base + now
    offsetInRegion := (s.offsetInRegion + int128GetLo now) % 2 ^ 64
    remain := s.remain - now }

/-- The body of the loop and its `++i`. The range at `i` is `range`; inserting
before it moves it to `i + 1`. -/
def fillStep (fr : FlatRange) (s : FillState) (range : FlatRange) : FillState :=
  if s.base ≥ addrrangeEnd range.addr then { s with i := s.i + 1 }
  else
    let s :=
      if s.base < range.addr.start then
        let now := min s.remain (range.addr.start - s.base)
        { s with
          view := flatviewInsert s.view s.i (rangePiece fr s.offsetInRegion s.base now)
          i := s.i + 1 }.advance now
      else s
    let now := min (s.base + s.remain) (addrrangeEnd range.addr) - s.base
    { s with i := s.i + 1 }.advance now

/-- The loop. Each turn passes one range the view had before it. -/
def fillLoop (fr : FlatRange) : Nat → FillState → FillState
  | 0, s => s
  | turns + 1, s =>
    match s.view[s.i]? with
    | none => s
    | some range => if s.remain ≠ 0 then fillLoop fr turns (fillStep fr s range) else s

/-- Render the region itself into what its subregions left free of `clip`. -/
def renderTerminal (view : FlatView) (fr : FlatRange) (base : Int) (clip : AddrRange) : FlatView :=
  let s := fillLoop fr view.length
    { view := view
      i := 0
      base := clip.start
      remain := clip.size
      offsetInRegion := int128GetLo (clip.start - base) }
  if s.remain ≠ 0 then
    flatviewInsert s.view s.i (rangePiece fr s.offsetInRegion s.base s.remain)
  else s.view

/-- The second half of `render_memory_region`, once `base` is the address of the
region and `clip` is cut to it: the alias, or the subregions and then the region
itself. `render` is the recursive call. -/
def renderClipped (regions : Regions)
    (render : FlatView → MrId → Int → AddrRange → RenderFlags → FlatView) (view : FlatView)
    (id : MrId) (base : Int) (clip : AddrRange) (flags : RenderFlags) : FlatView :=
  let mr := regions id
  match mr.aliasRegion with
  | some target => render view target (base - (regions target).addr - mr.aliasOffset) clip flags
  | none =>
    let view := mr.subregions.foldl
      (fun view subregion => render view subregion base clip flags) view
    if !mr.terminates then view
    else
      renderTerminal view
        { mr := id
          offsetInRegion := 0
          addr := clip
          dirtyLogMask := mr.dirtyLogMask
          romdMode := mr.romdMode
          readonly := flags.readonly
          nonvolatile := flags.nonvolatile
          unmergeable := flags.unmergeable }
        base clip

def renderMemoryRegion (regions : Regions) :
    Nat → FlatView → MrId → Int → AddrRange → RenderFlags → FlatView
  | 0, view, _, _, _, _ => view
  | depth + 1, view, id, base, clip, flags =>
    let mr := regions id
    if !mr.enabled then view
    else
      let base := base + mr.addr
      let tmp := addrrangeMake base mr.size
      if !addrrangeIntersects tmp clip then view
      else
        renderClipped regions (renderMemoryRegion regions depth) view id base
          (addrrangeIntersection tmp clip) (flags.join mr)

/-! ### The loop on the ranges ahead of it -/

/-- What the loop makes of the ranges from `i` on. -/
def fillRanges (fr : FlatRange) : FlatView → Int → Int → Nat → FlatView
  | [], base, remain, offset => if remain ≠ 0 then [rangePiece fr offset base remain] else []
  | range :: ranges, base, remain, offset =>
    if remain = 0 then range :: ranges
    else if base ≥ addrrangeEnd range.addr then range :: fillRanges fr ranges base remain offset
    else if base < range.addr.start then
      let now := min remain (range.addr.start - base)
      let past := min (base + now + (remain - now)) (addrrangeEnd range.addr) - (base + now)
      rangePiece fr offset base now :: range ::
        fillRanges fr ranges (base + now + past) (remain - now - past)
          (((offset + int128GetLo now) % 2 ^ 64 + int128GetLo past) % 2 ^ 64)
    else
      let past := min (base + remain) (addrrangeEnd range.addr) - base
      range :: fillRanges fr ranges (base + past) (remain - past)
        ((offset + int128GetLo past) % 2 ^ 64)

/-- The view after the loop and the insertion that follows it. -/
def FillState.finish (fr : FlatRange) (s : FillState) : FlatView :=
  if s.remain ≠ 0 then flatviewInsert s.view s.i (rangePiece fr s.offsetInRegion s.base s.remain)
  else s.view

theorem flatviewInsert_append (passed ahead : FlatView) (range : FlatRange) :
    flatviewInsert (passed ++ ahead) passed.length range = passed ++ range :: ahead := by
  simp [flatviewInsert]

theorem fillLoop_stop (fr : FlatRange) (turns : Nat) {s : FillState}
    (stops : s.view[s.i]? = none ∨ s.remain = 0) : fillLoop fr turns s = s := by
  cases turns with
  | zero => rfl
  | succ turns => grind [fillLoop]

theorem fillLoop_step {fr range : FlatRange} {passed ahead : FlatView} {base remain : Int}
    {turns offset : Nat} (left : ¬remain = 0) (enough : ahead.length < turns) :
    fillLoop fr turns ⟨passed ++ range :: ahead, passed.length, base, remain, offset⟩ =
      fillLoop fr (turns - 1)
        (fillStep fr ⟨passed ++ range :: ahead, passed.length, base, remain, offset⟩ range) := by
  cases turns with
  | zero => cases enough
  | succ turns => simp [fillLoop, left]

theorem fillLoop_eq (fr : FlatRange) (turns : Nat) (passed ahead : FlatView) (base remain : Int)
    (offset : Nat) (enough : ahead.length ≤ turns) :
    (fillLoop fr turns ⟨passed ++ ahead, passed.length, base, remain, offset⟩).finish fr =
      passed ++ fillRanges fr ahead base remain offset := by
  fun_induction fillRanges fr ahead base remain offset generalizing turns passed with
  | case1 base remain offset left =>
    rw [fillLoop_stop fr turns (.inl (by simp)), FillState.finish, if_pos left]
    exact flatviewInsert_append passed [] _
  | case2 base remain offset done =>
    rw [fillLoop_stop fr turns (.inl (by simp)), FillState.finish, if_neg done]
  | case3 =>
    rw [fillLoop_stop fr turns (.inr rfl)]
    rfl
  | case4 range ahead base remain offset left behind ih =>
    rw [fillLoop_step left enough, fillStep, if_pos behind]
    simpa using ih (turns - 1) (passed ++ [range]) (Nat.le_sub_one_of_lt enough)
  | case5 range ahead base remain offset left notBehind gap now past ih =>
    rw [fillLoop_step left enough, fillStep, if_neg notBehind, if_pos gap]
    simp only [FillState.advance, flatviewInsert_append]
    have next := ih (turns - 1) (passed ++ [rangePiece fr offset base now, range])
      (Nat.le_sub_one_of_lt enough)
    simp only [List.append_assoc, List.length_append] at next
    exact next
  | case6 range ahead base remain offset left notBehind noGap past ih =>
    rw [fillLoop_step left enough, fillStep, if_neg notBehind, if_neg noGap]
    have next := ih (turns - 1) (passed ++ [range]) (Nat.le_sub_one_of_lt enough)
    simp only [List.append_assoc, List.length_append] at next
    exact next

theorem renderTerminal_eq (view : FlatView) (fr : FlatRange) (base : Int) (clip : AddrRange) :
    renderTerminal view fr base clip =
      fillRanges fr view clip.start clip.size (int128GetLo (clip.start - base)) := by
  have loop := fillLoop_eq fr view.length [] view clip.start clip.size
    (int128GetLo (clip.start - base)) (Nat.le_refl _)
  simpa [renderTerminal, FillState.finish] using loop

end QemuGzvm.Memory
