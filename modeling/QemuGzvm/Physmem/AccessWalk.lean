import QemuGzvm.Physmem.Access

/-!
Contract: accesses through a view, and their prediction, as walks over pieces.

Owns:
- the views and dispatches that accesses go through, and the section at an address;
- the pieces that the two loops cut a range into;
- both loops as walks: which ranges they get through, whatever `mru_section` is and however
  many turns they take.
-/

namespace QemuGzvm.Physmem

open QemuGzvm.Library QemuGzvm.Memory

/-! ### Sizes -/

theorem pow2floor_mono : Monotone pow2floor := by
  intro n m le
  unfold pow2floor
  by_cases zero : n = 0
  · rw [if_pos zero]
    exact Nat.zero_le _
  · rw [if_neg zero, if_neg (by omega)]
    apply Nat.pow_le_pow_right Nat.zero_lt_two
    exact (Nat.le_log2 (by omega)).mpr (Nat.le_trans (Nat.log2_self_le zero) le)

theorem pow2floor_min (n m : Nat) : pow2floor (min n m) = min (pow2floor n) (pow2floor m) :=
  pow2floor_mono.map_min

theorem pow2floor_le (n : Nat) : pow2floor n ≤ n := by
  unfold pow2floor
  split
  · exact Nat.zero_le _
  · next some => exact Nat.log2_self_le some

theorem pow2floor_pow2floor (n : Nat) : pow2floor (pow2floor n) = pow2floor n := by
  by_cases zero : n = 0
  · rw [zero]
    rfl
  · have power : pow2floor n = 2 ^ Nat.log2 n := if_neg zero
    rw [power, pow2floor, if_neg (Nat.ne_of_gt (Nat.two_pow_pos _)), Nat.log2_two_pow]

theorem pow2floor_small {n : Nat} (small : pow2floor n ≤ 8) :
    pow2floor n = 0 ∨ pow2floor n ∈ [1, 2, 4, 8] := by
  by_cases zero : n = 0
  · rw [zero]
    exact Or.inl rfl
  · have power : pow2floor n = 2 ^ Nat.log2 n := if_neg zero
    rw [power] at small ⊢
    have low : Nat.log2 n < 4 := (Nat.pow_lt_pow_iff_right (by decide : 1 < 2)).mp
      (Nat.lt_of_le_of_lt small (by decide))
    right
    generalize Nat.log2 n = exponent at low
    have values : exponent = 0 ∨ exponent = 1 ∨ exponent = 2 ∨ exponent = 3 := by omega
    rcases values with rfl | rfl | rfl | rfl <;> decide

section Sizes

variable {ops : MemoryRegionOps} {l addr other : Nat}

section

variable (small : memoryAccessSize ops l addr ≤ 8)
include small

/-- A size of at most 8 bytes, as the smaller of two powers of two. -/
theorem memoryAccessSize_eq :
    memoryAccessSize ops l addr =
      min (pow2floor (l % 2 ^ 32)) (pow2floor (accessSizeMax ops addr)) := by
  grind [memoryAccessSize, hwaddrOfInt, pow2floor_min]

theorem memoryAccessSize_small :
    memoryAccessSize ops l addr = 0 ∨ memoryAccessSize ops l addr ∈ [1, 2, 4, 8] := by
  have same := memoryAccessSize_eq small
  rw [← pow2floor_min] at same
  rw [same] at small ⊢
  exact pow2floor_small small

theorem memoryAccessSize_le : memoryAccessSize ops l addr ≤ l := by
  rw [memoryAccessSize_eq small]
  exact Nat.le_trans (Nat.min_le_left _ _) (Nat.le_trans (pow2floor_le _) (Nat.mod_le _ _))

/-- A small size given as the length comes out as it is, or as the size that was smaller. -/
theorem memoryAccessSize_again (le : memoryAccessSize ops l other ≤ memoryAccessSize ops l addr) :
    memoryAccessSize ops (memoryAccessSize ops l addr) other = memoryAccessSize ops l other := by
  have size := memoryAccessSize_eq small
  have otherSize := memoryAccessSize_eq (Nat.le_trans le small)
  have floor : pow2floor (memoryAccessSize ops l addr) = memoryAccessSize ops l addr := by
    rw [size, ← pow2floor_min, pow2floor_pow2floor]
  have whole : memoryAccessSize ops l addr % 2 ^ 32 = memoryAccessSize ops l addr :=
    Nat.mod_eq_of_lt (Nat.lt_of_le_of_lt small (by decide))
  have again : min (memoryAccessSize ops l addr) (pow2floor (accessSizeMax ops other)) =
      memoryAccessSize ops l other := by
    rw [otherSize] at le ⊢
    omega
  have raw : pow2floor (min (memoryAccessSize ops l addr % 2 ^ 32) (accessSizeMax ops other)) =
      memoryAccessSize ops l other := by
    rw [whole, pow2floor_min, floor, again]
  rw [memoryAccessSize, raw, hwaddrOfInt, if_pos]
  exact Nat.lt_of_le_of_lt (Nat.le_trans le small) (by decide)

end

end Sizes

/-! ### Views -/

variable {page : TargetPage}

variable (page) in
/-- A flat view as `generate_memory_topology` leaves it, and its regions. -/
structure AccessView where
  ranges : FlatView
  ordered : Ordered ranges
  few : sectionsProduced page ranges < page.size
  regions : MrId → AccessRegion
  /-- Ranges of RAM and of ROM devices lie in the used part of their block. -/
  backed : ∀ fr ∈ ranges, memoryRegionSupportsDirectAccess (regions fr.mr) = true →
    fr.offsetInRegion + fr.addr.size.toNat ≤ (regions fr.mr).usedLength ∧
      (regions fr.mr).usedLength ≤ (regions fr.mr).maxLength ∧
      (regions fr.mr).maxLength < 2 ^ 64

instance (mrs : DispatchSection) (addr : Nat) : Decidable (mrs.Covers addr) :=
  inferInstanceAs (Decidable (_ ∧ _))

variable (page) in
def sectionAt (ranges : FlatView) (addr : Nat) : DispatchSection :=
  match (viewPieces page ranges).find? fun piece => decide (piece.mrs.Covers addr) with
  | some piece => piece.mrs
  | none => unassignedSection

namespace AccessView

/-- A dispatch that was built from the view, compacted or not, after any lookups. -/
def Dispatches (view : AccessView page) (d : AddressSpaceDispatch) : Prop :=
  ∃ allocHint built compacted start earlier,
    buildDispatch page allocHint view.ranges = .ok built ∧
    addressSpaceDispatchCompact page built = .ok compacted ∧
    (start = built ∨ start = compacted) ∧ (∀ query ∈ earlier, query.1 < 2 ^ 64) ∧
    lookups page start earlier = .ok d

/-- A dispatch whose every lookup finds the section at the address. -/
def Reads (view : AccessView page) (d : AddressSpaceDispatch) : Prop :=
  ∃ sectionOf pieces withSubpage, Readable page d sectionOf pieces withSubpage ∧
    ∀ mrs, mrs ∈ pieces ↔ ∃ piece ∈ viewPieces page view.ranges, piece.mrs = mrs

theorem exists_dispatch (view : AccessView page) : ∃ d, view.Dispatches d := by
  obtain ⟨built, compacted, _, _, _, ran, -, ran', -, -⟩ :=
    buildDispatch_readable page 0 view.ordered view.few
  exact ⟨built, 0, built, compacted, built, [], ran, ran', Or.inl rfl, nofun, rfl⟩

theorem Dispatches.reads {view : AccessView page} {d : AddressSpaceDispatch}
    (dispatch : view.Dispatches d) : view.Reads d := by
  obtain ⟨allocHint, built, compacted, start, earlier, ran, ran', isStart, low, looked⟩ := dispatch
  obtain ⟨built', compacted', sectionOf, pieces, withSubpage, made, -, made', members, readable⟩ :=
    buildDispatch_readable page allocHint view.ordered view.few
  rw [ran] at made
  cases made
  rw [ran'] at made'
  cases made'
  obtain ⟨d', looked', -, readable'⟩ := lookups_spec (readable start isStart) earlier low
  rw [looked] at looked'
  cases looked'
  exact ⟨sectionOf, pieces, withSubpage, readable', members⟩

/-- What a translation gives, and that the next ones give the same. -/
theorem Reads.flatviewTranslate {view : AccessView page} {d : AddressSpaceDispatch}
    (reads : view.Reads d) {addr : Nat} (low : addr < 2 ^ 64) (plen : Nat) :
    ∃ d', Physmem.flatviewTranslate view.regions page d addr plen =
      .ok (foundIn view.regions (sectionAt page view.ranges addr) addr plen, d') ∧
      view.Reads d' := by
  obtain ⟨sectionOf, pieces, withSubpage, readable, members⟩ := reads
  obtain ⟨number, d', found, sections, readable', resolved⟩ :=
    addressSpaceLookupRegion_spec readable low true
  have answers := readable.sections.answer addr low number (resolved rfl)
  have stored : d.sections[number]? = some (sectionAt page view.ranges addr) := by
    unfold sectionAt
    split
    · next piece isPiece =>
      have covers : piece.mrs.Covers addr := by simpa using List.find?_some isPiece
      exact answers.1 _ ((members _).mpr ⟨piece, List.mem_of_find?_eq_some isPiece, rfl⟩) covers
    · next none =>
      have unset : number = physSectionUnassigned := by
        apply answers.2
        intro mrs member covers
        obtain ⟨piece, isPiece, rfl⟩ := (members mrs).mp member
        exact absurd (decide_eq_true covers) (List.find?_eq_none.mp none piece isPiece)
      rw [unset]
      exact readable.sections.dummy
  refine ⟨d', ?_, sectionOf, pieces, withSubpage, readable', members⟩
  rw [Physmem.flatviewTranslate, found, bind_ok]
  dsimp only
  rw [sections, readAt_of_getElem? stored, bind_ok]

/-! ### What stands at an address -/

section At

variable (view : AccessView page) (call : AccessCall) (addr len : Nat)

def found : Found := foundIn view.regions (sectionAt page view.ranges addr) addr len

/-- The offset in the region, which the length has no part in. -/
def xlat : Nat := (view.found addr 0).xlat

def mr : DispatchMr := (sectionAt page view.ranges addr).mr

def region : AccessRegion := regionOf view.regions (view.mr addr)

def direct : Bool := directAt view.regions call (view.mr addr)

/-- The size that the prediction takes. -/
def sizeByAddress : Nat := memoryAccessSize (view.region addr).ops (view.found addr len).plen addr

def sizeByOffset : Nat :=
  memoryAccessSize (view.region addr).ops (view.found addr len).plen (view.xlat addr)

def allows (size : Nat) : Bool :=
  memoryRegionAccessValid view.regions call (view.mr addr) (view.xlat addr) size

/-- The piece of the prediction, if it is not refused. -/
def validPiece : Option Nat :=
  if view.direct call addr then some (view.found addr len).plen
  else if view.allows call addr (view.sizeByAddress addr len % 2 ^ 32) then
    some (view.sizeByAddress addr len)
  else none

/-- The piece of the access, if it is not refused and does not stop. -/
def accessPiece : Option Nat :=
  if view.direct call addr then
    if view.xlat addr < (view.region addr).usedLength then
      some (min (view.found addr len).plen ((view.region addr).maxLength - view.xlat addr))
    else none
  else if view.sizeByOffset addr len ∈ [1, 2, 4, 8] ∧
      view.allows call addr (view.sizeByOffset addr len) = true then
    some (view.sizeByOffset addr len)
  else none

end At

end AccessView

/-! ### Walks -/

/-- A range that is used up by pieces taken off its front, none of which is refused. -/
inductive Passes (piece : Nat → Nat → Option Nat) : Nat → Nat → Prop
  | done (addr : Nat) : Passes piece addr 0
  | more {addr len l : Nat} (some : len ≠ 0) (takes : piece addr len = .some l)
      (rest : Passes piece (addrAfter addr l) (lenAfter len l)) : Passes piece addr len

theorem Passes.mono {piece other : Nat → Nat → Option Nat} {addr len : Nat}
    (passes : Passes piece addr len)
    (allows : ∀ addr len l, piece addr len = some l → other addr len = some l) :
    Passes other addr len := by
  induction passes with
  | done addr => exact .done addr
  | more some takes _ ih => exact .more some (allows _ _ _ takes) ih

theorem passes_iff {piece : Nat → Nat → Option Nat} {addr len : Nat} (some : len ≠ 0) :
    Passes piece addr len ↔
      ∃ l, piece addr len = .some l ∧ Passes piece (addrAfter addr l) (lenAfter len l) := by
  constructor
  · intro passes
    cases passes with
    | done => exact absurd rfl some
    | more _ takes rest => exact ⟨_, takes, rest⟩
  · intro taken
    obtain ⟨l, takes, rest⟩ := taken
    exact .more some takes rest

theorem addrAfter_lt (addr l : Nat) : addrAfter addr l < 2 ^ 64 := Nat.mod_lt _ (by decide)

theorem lenAfter_lt (len l : Nat) : lenAfter len l < 2 ^ 64 := Nat.mod_lt _ (by decide)

theorem lenAfter_self (len : Nat) : lenAfter len len = 0 := by
  unfold lenAfter
  rw [Nat.add_comm, Nat.add_sub_cancel, Nat.mod_self]

theorem passes_of_piece {piece : Nat → Nat → Option Nat} {addr len : Nat} (some : len ≠ 0)
    (takes : piece addr len = .some len) : Passes piece addr len := by
  apply Passes.more some takes
  rw [lenAfter_self]
  exact .done _

namespace AccessView

variable {view : AccessView page} {call : AccessCall} {d : AddressSpaceDispatch} {addr len : Nat}

def ValidPasses (view : AccessView page) (call : AccessCall) : Nat → Nat → Prop :=
  Passes (view.validPiece call)

def AccessPasses (view : AccessView page) (call : AccessCall) : Nat → Nat → Prop :=
  Passes (view.accessPiece call)

/-- A turn of the prediction takes its piece, or ends with no. -/
theorem validTurn_eq (call : AccessCall) (reads : view.Reads d) (low : addr < 2 ^ 64)
    (some : len ≠ 0) :
    ∃ d', view.Reads d' ∧ flatviewAccessValidTurn view.regions page call ⟨d, addr, len⟩ =
      .ok (match view.validPiece call addr len with
        | .some l => .more ⟨d', addrAfter addr l, lenAfter len l⟩
        | none => .finish false) := by
  obtain ⟨d', translated, reads'⟩ := reads.flatviewTranslate low len
  refine ⟨d', reads', ?_⟩
  rw [flatviewAccessValidTurn, if_neg some, translated, bind_ok]
  change (if view.direct call addr = true then _ else
    if view.allows call addr (view.sizeByAddress addr len % 2 ^ 32) = true then _ else _) = _
  unfold validPiece
  split
  · rfl
  · split
    · rfl
    · rfl

theorem flatviewAccessValid_iff (reads : view.Reads d) (low : addr < 2 ^ 64) :
    (∃ fuel, flatviewAccessValid view.regions page call fuel d addr len = .ok true) ↔
      view.ValidPasses call addr len := by
  have finishes : (∃ fuel, flatviewAccessValid view.regions page call fuel d addr len = .ok true) ↔
      Finishes (flatviewAccessValidTurn view.regions page call) true ⟨d, addr, len⟩ := finishes_iff.symm
  rw [finishes]
  clear finishes
  constructor
  · intro ends
    generalize start : (⟨d, addr, len⟩ : Cursor) = cursor at ends
    induction ends generalizing d addr len with
    | last taken =>
      subst start
      by_cases some : len = 0
      · rw [some]
        exact .done addr
      · obtain ⟨d', -, turn⟩ := validTurn_eq call reads low some
        rw [turn] at taken
        split at taken <;> cases taken
    | more taken _ ih =>
      subst start
      by_cases some : len = 0
      · rw [flatviewAccessValidTurn, if_pos some] at taken
        cases taken
      · obtain ⟨d', reads', turn⟩ := validTurn_eq call reads low some
        rw [turn] at taken
        split at taken
        · next l takes =>
          cases taken
          exact .more some takes (ih reads' (addrAfter_lt _ _) rfl)
        · cases taken
  · intro passes
    induction passes generalizing d with
    | done addr => exact .last (if_pos rfl)
    | more some takes _ ih =>
      obtain ⟨d', reads', turn⟩ := validTurn_eq call reads low some
      rw [takes] at turn
      exact .more turn (ih reads' (addrAfter_lt _ _))

/-- A step of the access takes its piece without an error, or adds `MEMTX_DECODE_ERROR`, or
stops. -/
theorem flatviewContinueStep_iff (plain : call.attrs.memory = false) {result : MemTxResult}
    {l : Nat} :
    (flatviewContinueStep view.regions call (view.found addr len) = .ok (result, l) ∧
      result &&& memtxDecodeError = 0) ↔ (view.accessPiece call addr len = some l ∧ result = 0) := by
  have allowed : flatviewAccessAllowed view.regions call (view.found addr len).mr = true := by
    rw [flatviewAccessAllowed, plain]
    rfl
  have step : flatviewContinueStep view.regions call (view.found addr len) =
      if view.direct call addr = true then
        if view.xlat addr < (view.region addr).usedLength then
          .ok (0, min (view.found addr len).plen ((view.region addr).maxLength - view.xlat addr))
        else .error .assertion
      else if view.sizeByOffset addr len ∈ [1, 2, 4, 8] then
        .ok (if view.allows call addr (view.sizeByOffset addr len) then 0 else memtxDecodeError,
          view.sizeByOffset addr len)
      else .error .assertion := by
    unfold flatviewContinueStep
    rw [allowed, if_neg (by decide)]
    rfl
  rw [step]
  unfold accessPiece
  by_cases direct : view.direct call addr = true
  · rw [if_pos direct, if_pos direct]
    by_cases used : view.xlat addr < (view.region addr).usedLength
    · rw [if_pos used, if_pos used]
      constructor
      · intro step
        cases step.1
        exact ⟨rfl, rfl⟩
      · intro piece
        cases piece.1
        rw [piece.2]
        exact ⟨rfl, by decide⟩
    · rw [if_neg used, if_neg used]
      constructor <;> intro both <;> cases both.1
  · rw [if_neg direct, if_neg direct]
    by_cases known : view.sizeByOffset addr len ∈ [1, 2, 4, 8]
    · rw [if_pos known]
      by_cases valid : view.allows call addr (view.sizeByOffset addr len) = true
      · rw [if_pos valid, if_pos ⟨known, valid⟩]
        constructor
        · intro step
          cases step.1
          exact ⟨rfl, rfl⟩
        · intro piece
          cases piece.1
          rw [piece.2]
          exact ⟨rfl, by decide⟩
      · rw [if_neg valid, if_neg fun both => valid both.2]
        constructor
        · intro step
          cases step.1
          exact absurd step.2 (by decide)
        · intro piece
          cases piece.1
    · rw [if_neg known, if_neg fun both => known both.1]
      constructor <;> intro both <;> cases both.1

theorem or_and_decodeError {a b : MemTxResult} :
    (a ||| b) &&& memtxDecodeError = 0 ↔
      a &&& memtxDecodeError = 0 ∧ b &&& memtxDecodeError = 0 := by
  have distributes : (a ||| b) &&& memtxDecodeError =
      (a &&& memtxDecodeError) ||| (b &&& memtxDecodeError) := by
    apply UInt32.toBitVec_inj.mp
    ext bit inside
    simp only [UInt32.toBitVec_and, UInt32.toBitVec_or, BitVec.getElem_and, BitVec.getElem_or,
      Bool.and_or_distrib_right]
  rw [distributes, UInt32.or_eq_zero_iff]

theorem continueTurn_eq (reads : view.Reads d) (addr len : Nat) {found : Found}
    (earlier : MemTxResult) {result : MemTxResult} {l : Nat}
    (stepped : flatviewContinueStep view.regions call found = .ok (result, l)) :
    ∃ d', view.Reads d' ∧
      flatviewContinueTurn view.regions page call ⟨⟨d, addr, len⟩, found, earlier⟩ =
      .ok (if lenAfter len l = 0 then .finish (earlier ||| result)
        else .more ⟨⟨d', addrAfter addr l, lenAfter len l⟩,
          view.found (addrAfter addr l) (lenAfter len l), earlier ||| result⟩) := by
  obtain ⟨d', translated, reads'⟩ :=
    reads.flatviewTranslate (addrAfter_lt addr l) (lenAfter len l)
  refine ⟨d', reads', ?_⟩
  rw [flatviewContinueTurn, stepped, bind_ok]
  dsimp only
  split
  · rfl
  · rw [translated, bind_ok]
    rfl

theorem flatviewContinue_iff (plain : call.attrs.memory = false) (reads : view.Reads d)
    (addr : Nat) (some : len ≠ 0) (earlier : MemTxResult) :
    (∃ result, Finishes (flatviewContinueTurn view.regions page call) result
      ⟨⟨d, addr, len⟩, view.found addr len, earlier⟩ ∧ result &&& memtxDecodeError = 0) ↔
      view.AccessPasses call addr len ∧ earlier &&& memtxDecodeError = 0 := by
  constructor
  · intro ends
    obtain ⟨result, finishes, clean⟩ := ends
    generalize start : (⟨⟨d, addr, len⟩, view.found addr len, earlier⟩ : AccessCursor) =
      cursor at finishes
    induction finishes generalizing d addr len earlier with
    | last taken =>
      subst start
      cases stepped : flatviewContinueStep view.regions call (view.found addr len) with
      | error fault =>
        rw [flatviewContinueTurn, stepped] at taken
        cases taken
      | ok step =>
        obtain ⟨d', -, turn⟩ := continueTurn_eq reads addr len earlier stepped
        rw [turn] at taken
        split at taken
        · next finished =>
          cases taken
          obtain ⟨before, own⟩ := or_and_decodeError.mp clean
          have piece := ((flatviewContinueStep_iff plain).mp ⟨stepped, own⟩).1
          refine ⟨.more some piece ?_, before⟩
          rw [finished]
          exact .done _
        · cases taken
    | more taken _ ih =>
      subst start
      cases stepped : flatviewContinueStep view.regions call (view.found addr len) with
      | error fault =>
        rw [flatviewContinueTurn, stepped] at taken
        cases taken
      | ok step =>
        obtain ⟨d', reads', turn⟩ := continueTurn_eq reads addr len earlier stepped
        rw [turn] at taken
        split at taken
        · cases taken
        · next unfinished =>
          cases taken
          obtain ⟨rest, both⟩ := ih reads' _ unfinished _ rfl
          obtain ⟨before, own⟩ := or_and_decodeError.mp both
          have piece := ((flatviewContinueStep_iff plain).mp ⟨stepped, own⟩).1
          exact ⟨.more some piece rest, before⟩
  · intro passes
    obtain ⟨passes, clean⟩ := passes
    refine ⟨earlier, ?_, clean⟩
    induction passes generalizing d with
    | done addr => exact absurd rfl some
    | @more addr len l _ takes rest ih =>
      have stepped := ((flatviewContinueStep_iff plain).mpr ⟨takes, rfl⟩).1
      obtain ⟨d', reads', turn⟩ := continueTurn_eq reads addr len earlier stepped
      rw [UInt32.or_zero] at turn
      by_cases finished : lenAfter len l = 0
      · rw [if_pos finished] at turn
        exact .last turn
      · rw [if_neg finished] at turn
        exact .more turn (ih reads' finished)

theorem flatviewAccess_iff (plain : call.attrs.memory = false) (reads : view.Reads d)
    (low : addr < 2 ^ 64) (some : len ≠ 0) :
    (∃ fuel result, flatviewAccess view.regions page call fuel d addr len = .ok result ∧
      result &&& memtxDecodeError = 0) ↔ view.AccessPasses call addr len := by
  obtain ⟨d', translated, reads'⟩ := reads.flatviewTranslate low len
  have allowed (mr : DispatchMr) : flatviewAccessAllowed view.regions call mr = true := by
    rw [flatviewAccessAllowed, plain]
    rfl
  have loop (fuel : Nat) : flatviewAccess view.regions page call fuel d addr len =
      runLoop (flatviewContinueTurn view.regions page call) fuel
        ⟨⟨d', addr, len⟩, view.found addr len, 0⟩ := by
    rw [flatviewAccess, translated, bind_ok]
    dsimp only
    rw [allowed, if_neg (by decide)]
    rfl
  have walk := flatviewContinue_iff plain reads' addr some 0
  constructor
  · intro ends
    obtain ⟨fuel, result, ran, clean⟩ := ends
    rw [loop] at ran
    exact (walk.mp ⟨result, finishes_iff.mpr ⟨fuel, ran⟩, clean⟩).1
  · intro passes
    obtain ⟨result, finishes, clean⟩ := walk.mpr ⟨passes, by decide⟩
    obtain ⟨fuel, ran⟩ := finishes_iff.mp finishes
    exact ⟨fuel, result, (loop fuel).trans ran, clean⟩

end AccessView

end QemuGzvm.Physmem
