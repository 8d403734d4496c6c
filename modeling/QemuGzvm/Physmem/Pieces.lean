import QemuGzvm.Physmem.Register

/-!
Contract: the pieces `flatview_add_to_dispatch` cuts a section into.

Owns:
- the part before the first page bound, the whole pages and the rest;
- that `flatview_add_to_dispatch` registers these pieces in order;
- that they tile the section.
-/

namespace QemuGzvm.Physmem

open QemuGzvm.Library QemuGzvm.Memory

/-! ### The pieces of a section -/

/-- `size` bytes of a section from `offset` on. -/
def sliceOf (mrs : DispatchSection) (offset size : Nat) : DispatchSection where
  mr := mrs.mr
  offsetWithinRegion :=
    if offset = 0 then mrs.offsetWithinRegion else (mrs.offsetWithinRegion + offset) % 2 ^ 64
  offsetWithinAddressSpace := mrs.offsetWithinAddressSpace + offset
  size := size

theorem sliceOf_sliceOf (mrs : DispatchSection) (first second total size : Nat) :
    sliceOf (sliceOf mrs first total) second size = sliceOf mrs (first + second) size := by
  grind [sliceOf]

variable (page : TargetPage)

def nonempty (piece : Piece) : Bool := decide (0 < piece.mrs.size)

/-- The whole pages of a section that starts at a page bound, and the rest. -/
def alignedPieces (remain : DispatchSection) : List Piece :=
  [⟨true, sliceOf remain 0 (remain.size - remain.size % page.size)⟩,
    ⟨false, sliceOf remain (remain.size - remain.size % page.size)
      (remain.size % page.size)⟩].filter nonempty

/-- What lies before the first page bound. -/
def headSize (mrs : DispatchSection) : Nat :=
  if mrs.offsetWithinAddressSpace % page.size = 0 then 0
  else min (page.size - mrs.offsetWithinAddressSpace % page.size) mrs.size

def piecesOf (mrs : DispatchSection) : List Piece :=
  [Piece.mk false (sliceOf mrs 0 (headSize page mrs))].filter nonempty ++
    alignedPieces page (sliceOf mrs (headSize page mrs) (mrs.size - headSize page mrs))

variable {page}

variable {d d' : AddressSpaceDispatch} {remain : DispatchSection} {size : Nat}
  {mrs : DispatchSection}

theorem registerFront_some
    {register : AddressSpaceDispatch → DispatchSection → Checked AddressSpaceDispatch}
    (some : 0 < size) (more : size < remain.size)
    (inside : remain.offsetWithinAddressSpace + remain.size ≤ 2 ^ 64)
    (ran : register d (sliceOf remain 0 size) = .ok d') :
    registerFront register d remain size =
      .ok (d', Option.some (sliceOf remain size (remain.size - size))) := by
  grind [sliceOf, registerFront, bind_ok, int128Get64_natCast]

theorem foldlM_cons_ok {piece : Piece} {rest : List Piece}
    (ran : (piece :: rest).foldlM (registerPiece page) d = .ok d') :
    ∃ next, registerPiece page d piece = .ok next ∧
      rest.foldlM (registerPiece page) next = .ok d' := by
  rw [List.foldlM_cons] at ran
  cases first : registerPiece page d piece with
  | error fault =>
    rw [first] at ran
    cases ran
  | ok next =>
    rw [first] at ran
    exact ⟨next, rfl, ran⟩

theorem foldlM_nil_ok (ran : ([] : List Piece).foldlM (registerPiece page) d = .ok d') :
    d = d' := by
  cases ran
  rfl

theorem addAligned_of_pieces (some : 0 < remain.size)
    (inside : remain.offsetWithinAddressSpace + remain.size ≤ 2 ^ 64)
    (ran : (alignedPieces page remain).foldlM (registerPiece page) d = .ok d') :
    addAligned page d remain = .ok d' := by
  have positive := page.size_pos
  unfold addAligned
  unfold alignedPieces at ran
  by_cases small : remain.size < page.size
  · have rest : remain.size % page.size = remain.size := Nat.mod_eq_of_lt small
    rw [rest, Nat.sub_self, List.filter_cons_of_neg (by simp [nonempty, sliceOf]),
      List.filter_cons_of_pos (by simpa [nonempty, sliceOf] using some), List.filter_nil] at ran
    obtain ⟨next, registered, ended⟩ := foldlM_cons_ok ran
    rw [← foldlM_nil_ok ended, if_neg (by omega), bind_ok]
    exact registered
  · have some' : 0 < remain.size - remain.size % page.size := by
      have := Nat.mod_lt remain.size positive
      omega
    rw [List.filter_cons_of_pos (by simpa [nonempty, sliceOf] using some')] at ran
    obtain ⟨next, registered, ran⟩ := foldlM_cons_ok ran
    rw [if_pos (by omega)]
    by_cases none : remain.size % page.size = 0
    · rw [List.filter_cons_of_neg (by simp [nonempty, sliceOf, none]), List.filter_nil] at ran
      have all : remain.size - remain.size % page.size = remain.size := by omega
      rw [all] at registered ⊢
      have registered : registerMultipage page d { remain with size := remain.size } = .ok next :=
        registered
      rw [registerFront, registered, bind_ok, if_pos rfl, bind_ok, foldlM_nil_ok ran]
    · rw [List.filter_cons_of_pos (by simpa [nonempty, sliceOf] using Nat.pos_of_ne_zero none),
        List.filter_nil] at ran
      obtain ⟨last, registered', ended⟩ := foldlM_cons_ok ran
      rw [registerFront_some some' (by omega) inside registered, bind_ok,
        show remain.size - (remain.size - remain.size % page.size) = remain.size % page.size by omega,
        ← foldlM_nil_ok ended]
      exact registered'

theorem headSize_eq (mrs : DispatchSection) (low : mrs.offsetWithinAddressSpace < 2 ^ 64)
    (unaligned : mrs.offsetWithinAddressSpace % page.size ≠ 0) :
    min ((targetPageAlign page mrs.offsetWithinAddressSpace + 2 ^ 64 -
      mrs.offsetWithinAddressSpace) % 2 ^ 64) mrs.size = headSize page mrs := by
  rw [headSize, if_neg unaligned]
  congr 1
  have positive := page.size_pos
  have split := Nat.div_add_mod' mrs.offsetWithinAddressSpace page.size
  have bound := Nat.mod_lt mrs.offsetWithinAddressSpace positive
  have next : (mrs.offsetWithinAddressSpace + page.size - 1) / page.size =
      mrs.offsetWithinAddressSpace / page.size + 1 := by
    rw [div_size_eq_iff, Nat.succ_mul]
    omega
  have limit : (mrs.offsetWithinAddressSpace / page.size + 1) * page.size ≤ 2 ^ 64 := by
    rw [← page.pages_mul_size]
    exact Nat.mul_le_mul_right _ (page.div_lt_pages low)
  rw [targetPageAlign, next]
  rw [Nat.succ_mul] at limit ⊢
  omega

theorem flatviewAddToDispatch_of_pieces (some : 0 < mrs.size)
    (inside : mrs.offsetWithinAddressSpace + mrs.size ≤ 2 ^ 64)
    (ran : (piecesOf page mrs).foldlM (registerPiece page) d = .ok d') :
    flatviewAddToDispatch page d mrs = .ok d' := by
  unfold flatviewAddToDispatch
  unfold piecesOf at ran
  dsimp only
  by_cases aligned : mrs.offsetWithinAddressSpace % page.size = 0
  · have isHead : headSize page mrs = 0 := if_pos aligned
    rw [isHead, List.filter_cons_of_neg (by simp [nonempty, sliceOf]), List.filter_nil,
      List.nil_append, Nat.sub_zero] at ran
    rw [if_neg (not_not.mpr aligned), bind_ok]
    exact addAligned_of_pieces some inside ran
  · have bound := Nat.mod_lt mrs.offsetWithinAddressSpace page.size_pos
    have isHead : headSize page mrs =
        min (page.size - mrs.offsetWithinAddressSpace % page.size) mrs.size := if_neg aligned
    have someHead : 0 < headSize page mrs := by omega
    rw [if_pos aligned, headSize_eq mrs (by omega) aligned]
    rw [List.filter_cons_of_pos (by simpa [nonempty, sliceOf] using someHead), List.filter_nil,
      List.singleton_append] at ran
    obtain ⟨next, registered, ran⟩ := foldlM_cons_ok ran
    by_cases all : mrs.size = headSize page mrs
    · have registered : registerSubpage page d { mrs with size := headSize page mrs } = .ok next :=
        registered
      have nothing : alignedPieces page (sliceOf mrs (headSize page mrs)
          (mrs.size - headSize page mrs)) = [] := by
        rw [← all, Nat.sub_self]
        simp [alignedPieces, nonempty, sliceOf]
      rw [nothing] at ran
      rw [registerFront, registered, bind_ok, if_pos all, bind_ok, foldlM_nil_ok ran]
    · rw [registerFront_some someHead (by omega) inside registered, bind_ok]
      refine addAligned_of_pieces ?_ ?_ ran
      · rw [sliceOf]
        dsimp only
        omega
      · rw [sliceOf]
        dsimp only
        omega

/-! ### The pieces tile the section -/

variable (page) in
structure Tiles (mrs : DispatchSection) (tiles : List Piece) : Prop where
  valid : ∀ piece ∈ tiles, piece.Valid page
  slices : ∀ piece ∈ tiles, ∃ offset size,
    piece.mrs = sliceOf mrs offset size ∧ offset + size ≤ mrs.size
  disjoint : tiles.Pairwise Apart
  cover : ∀ addr, mrs.Covers addr → ∃ piece ∈ tiles, piece.mrs.Covers addr

theorem whole_pages (size : Nat) : (size - size % page.size) % page.size = 0 := by
  have split := Nat.div_add_mod size page.size
  have isMul : size - size % page.size = page.size * (size / page.size) := by omega
  rw [isMul, Nat.mul_mod_right]

theorem tiles_nil (none : mrs.size = 0) : Tiles page mrs [] := by
  refine ⟨nofun, nofun, .nil, fun addr covers => ?_⟩
  unfold DispatchSection.Covers at covers
  omega

/-- The first bytes of a section, if there are any, in front of tiles of the rest. -/
theorem Tiles.front {tiles : List Piece} {whole : Bool} (isRegion : ∃ mr, mrs.mr = .region mr)
    (inside : mrs.offsetWithinAddressSpace + mrs.size ≤ 2 ^ 64) (le : size ≤ mrs.size)
    (shape : 0 < size → if whole then
        mrs.offsetWithinAddressSpace % page.size = 0 ∧ size % page.size = 0
      else mrs.offsetWithinAddressSpace % page.size + size ≤ page.size)
    (rest : Tiles page (sliceOf mrs size (mrs.size - size)) tiles) :
    Tiles page mrs ([⟨whole, sliceOf mrs 0 size⟩].filter nonempty ++ tiles) := by
  have isFirst : ∀ piece, piece ∈ [Piece.mk whole (sliceOf mrs 0 size)].filter nonempty ↔
      piece = ⟨whole, sliceOf mrs 0 size⟩ ∧ 0 < size := by
    intro piece
    rw [List.mem_filter, List.mem_singleton]
    constructor
    · rintro ⟨rfl, some⟩
      exact ⟨rfl, of_decide_eq_true some⟩
    · rintro ⟨rfl, some⟩
      exact ⟨rfl, decide_eq_true some⟩
  constructor
  · intro piece member
    rcases List.mem_append.mp member with member | member
    · obtain ⟨rfl, some⟩ := (isFirst piece).mp member
      refine ⟨isRegion, some, ?_, shape some⟩
      change mrs.offsetWithinAddressSpace + size ≤ 2 ^ 64
      omega
    · exact rest.valid piece member
  · intro piece member
    rcases List.mem_append.mp member with member | member
    · obtain ⟨rfl, _⟩ := (isFirst piece).mp member
      exact ⟨0, size, rfl, by omega⟩
    · obtain ⟨offset, length, isSlice, fits⟩ := rest.slices piece member
      refine ⟨size + offset, length, isSlice.trans (sliceOf_sliceOf ..), ?_⟩
      have fits : offset + length ≤ mrs.size - size := fits
      omega
  · refine List.pairwise_append.mpr ⟨List.Pairwise.filter _ (List.pairwise_singleton ..),
      rest.disjoint, ?_⟩
    intro first member other member' addr covered covered'
    obtain ⟨rfl, _⟩ := (isFirst first).mp member
    obtain ⟨offset, length, isSlice, _⟩ := rest.slices other member'
    rw [isSlice] at covered'
    have before : addr < mrs.offsetWithinAddressSpace + size := covered.2
    have after : mrs.offsetWithinAddressSpace + size + offset ≤ addr := covered'.1
    omega
  · rintro addr ⟨after, before⟩
    by_cases early : addr < mrs.offsetWithinAddressSpace + size
    · exact ⟨_, List.mem_append_left _ ((isFirst _).mpr ⟨rfl, by omega⟩), after, early⟩
    · obtain ⟨piece, member, covers⟩ := rest.cover addr ⟨by
        change mrs.offsetWithinAddressSpace + size ≤ addr
        omega, by
        change addr < mrs.offsetWithinAddressSpace + size + (mrs.size - size)
        omega⟩
      exact ⟨piece, List.mem_append_right _ member, covers⟩

theorem alignedPieces_tile (isRegion : ∃ mr, remain.mr = .region mr)
    (inside : remain.offsetWithinAddressSpace + remain.size ≤ 2 ^ 64)
    (aligned : 0 < remain.size → remain.offsetWithinAddressSpace % page.size = 0) :
    Tiles page remain (alignedPieces page remain) := by
  have restLe := Nat.mod_le remain.size page.size
  have restLt := Nat.mod_lt remain.size page.size_pos
  have bodyAligned : (remain.size - remain.size % page.size) % page.size = 0 := whole_pages _
  have pieces : alignedPieces page remain = [⟨true, sliceOf remain 0 (remain.size -
      remain.size % page.size)⟩].filter nonempty ++ ([⟨false, sliceOf (sliceOf remain
        (remain.size - remain.size % page.size) (remain.size % page.size)) 0
        (remain.size % page.size)⟩].filter nonempty ++ []) := by
    rw [sliceOf_sliceOf, List.append_nil, ← List.filter_append]
    rfl
  rw [pieces]
  generalize isBody : remain.size - remain.size % page.size = body at bodyAligned ⊢
  generalize remain.size % page.size = rest at restLe restLt isBody ⊢
  refine Tiles.front isRegion inside (by omega)
    (fun some => ⟨aligned (by omega), bodyAligned⟩) ?_
  rw [show remain.size - body = rest by omega]
  refine Tiles.front isRegion ?_ (Nat.le_refl _) (fun some => ?_) (tiles_nil (Nat.sub_self _))
  · change remain.offsetWithinAddressSpace + body + rest ≤ 2 ^ 64
    omega
  · change (remain.offsetWithinAddressSpace + body) % page.size + rest ≤ page.size
    rw [Nat.add_mod, aligned (by omega), bodyAligned, Nat.zero_add, Nat.zero_mod]
    omega

theorem piecesOf_tile (isRegion : ∃ mr, mrs.mr = .region mr)
    (inside : mrs.offsetWithinAddressSpace + mrs.size ≤ 2 ^ 64) :
    Tiles page mrs (piecesOf page mrs) := by
  have bound := Nat.mod_lt mrs.offsetWithinAddressSpace page.size_pos
  have split := Nat.div_add_mod' mrs.offsetWithinAddressSpace page.size
  unfold piecesOf
  generalize isHead : headSize page mrs = head
  rw [headSize] at isHead
  have headLe : head ≤ mrs.size := by
    split at isHead <;> omega
  refine Tiles.front isRegion inside headLe (fun _ => ?_)
    (alignedPieces_tile isRegion ?_ fun more => ?_)
  · change mrs.offsetWithinAddressSpace % page.size + head ≤ page.size
    split at isHead <;> omega
  · change mrs.offsetWithinAddressSpace + head + (mrs.size - head) ≤ 2 ^ 64
    omega
  · have more : 0 < mrs.size - head := more
    change (mrs.offsetWithinAddressSpace + head) % page.size = 0
    split at isHead
    case isTrue alignedStart => rw [← isHead, Nat.add_zero, alignedStart]
    case isFalse =>
      have next : mrs.offsetWithinAddressSpace + head =
          (mrs.offsetWithinAddressSpace / page.size + 1) * page.size := by
        rw [Nat.succ_mul]
        omega
      rw [next, Nat.mul_mod_left]

end QemuGzvm.Physmem
