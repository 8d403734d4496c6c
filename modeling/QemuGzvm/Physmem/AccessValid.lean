import QemuGzvm.Physmem.AccessWalk

/-!
Contract: whether `address_space_access_valid` predicts the access.

Owns:
- the callbacks that accept everything, nothing, or everything but one piece;
- the views for which the prediction is right for every callback, address, length and
  direction.

The prediction cuts by the guest's address and the access by the offset in the region. Where
the two sizes differ, the callback of the region can be chosen to accept one of them only, and
where they agree the two walks go the same way.
-/

namespace QemuGzvm.Physmem

open QemuGzvm.Library QemuGzvm.Memory

/-! ### Callbacks -/

namespace AccessCall

def acceptAll (call : AccessCall) : AccessCall := { call with accepts := fun _ _ _ _ _ => true }

def rejectAll (call : AccessCall) : AccessCall := { call with accepts := fun _ _ _ _ _ => false }

/-- Rejects accesses of one size at one place of one region only. -/
def rejectOne (call : AccessCall) (mr : DispatchMr) (addr size : Nat) : AccessCall :=
  { call with accepts := fun other place bytes _ _ =>
      !(decide (.region other = mr) && decide (place = addr) && decide (bytes = size)) }

end AccessCall

namespace AccessView

variable {page : TargetPage} {view : AccessView page} {call other : AccessCall} {addr len : Nat}
  {size l rejected : Nat}

/-- Two calls that differ in their callbacks only. -/
structure SameAccess (call other : AccessCall) : Prop where
  isWrite : call.isWrite = other.isWrite
  attrs : call.attrs = other.attrs

theorem SameAccess.direct (same : SameAccess call other) (addr : Nat) :
    view.direct call addr = view.direct other addr := by
  unfold AccessView.direct directAt
  rw [same.isWrite, same.attrs]

theorem SameAccess.allows (same : SameAccess call other)
    (le : ∀ number, call.accepts number (view.xlat addr) size call.isWrite call.attrs = true →
      other.accepts number (view.xlat addr) size call.isWrite call.attrs = true)
    (allowed : view.allows call addr size = true) : view.allows other addr size = true := by
  unfold AccessView.allows at allowed ⊢
  cases isMr : view.mr addr with
  | region number =>
    rw [isMr] at allowed
    simp only [memoryRegionAccessValid, Bool.and_eq_true] at allowed ⊢
    rw [← same.isWrite, ← same.attrs]
    exact ⟨⟨allowed.1.1, le number allowed.1.2⟩, allowed.2⟩
  | ioMemUnassigned =>
    rw [isMr] at allowed
    cases allowed
  | subpage index =>
    rw [isMr] at allowed
    cases allowed

theorem sameAccess_acceptAll (call : AccessCall) : SameAccess call call.acceptAll := ⟨rfl, rfl⟩

theorem sameAccess_rejectOne (call : AccessCall) (mr : DispatchMr) (addr size : Nat) :
    SameAccess call.acceptAll (call.rejectOne mr addr size) := ⟨rfl, rfl⟩

theorem validPiece_indirect (indirect : view.direct call addr = false)
    (takes : view.validPiece call addr len = some l) :
    view.sizeByAddress addr len = l ∧ view.allows call addr (l % 2 ^ 32) = true := by
  rw [validPiece, indirect, if_neg (by decide)] at takes
  split at takes
  · next allowed =>
    cases takes
    exact ⟨rfl, allowed⟩
  · cases takes

theorem accessPiece_indirect (indirect : view.direct call addr = false)
    (takes : view.accessPiece call addr len = some l) :
    view.sizeByOffset addr len = l ∧ l ∈ [1, 2, 4, 8] ∧ view.allows call addr l = true := by
  rw [accessPiece, indirect, if_neg (by decide)] at takes
  split at takes
  · next fine =>
    cases takes
    exact ⟨rfl, fine⟩
  · cases takes

theorem ValidPasses.acceptAll (passes : view.ValidPasses call addr len) :
    view.ValidPasses call.acceptAll addr len := by
  apply Passes.mono passes
  intro addr len l takes
  have same := sameAccess_acceptAll call
  cases direct : view.direct call addr with
  | true =>
    rw [validPiece, direct] at takes
    rw [validPiece, ← same.direct, direct]
    exact takes
  | false =>
    obtain ⟨size, allowed⟩ := validPiece_indirect direct takes
    rw [validPiece, ← same.direct, direct, if_neg (by decide), size]
    exact if_pos (same.allows (fun _ _ => rfl) allowed)

theorem AccessPasses.mono (passes : view.AccessPasses call addr len)
    (same : SameAccess call other)
    (le : ∀ number place size, size ∈ [1, 2, 4, 8] →
      call.accepts number place size call.isWrite call.attrs = true →
      other.accepts number place size call.isWrite call.attrs = true) :
    view.AccessPasses other addr len := by
  apply Passes.mono passes
  intro addr len l takes
  cases direct : view.direct call addr with
  | true =>
    rw [accessPiece, direct] at takes
    rw [accessPiece, ← same.direct, direct]
    exact takes
  | false =>
    obtain ⟨size, known, allowed⟩ := accessPiece_indirect direct takes
    rw [accessPiece, ← same.direct, direct, if_neg (by decide), size]
    exact if_pos ⟨known, same.allows (fun number => le number _ _ known) allowed⟩

/-! ### The condition -/

/-- At an address, the prediction and the access take the same piece; or, where they cut
differently, the limits of the regions rule out the range for both; or, in a ROM device that
ends inside the range, nothing but directly accessible memory comes behind it. -/
def CutsAgreeAt (view : AccessView page) (call : AccessCall) (addr len : Nat) : Prop :=
  if view.direct call addr = true then
    (view.found addr len).plen ≤ (view.region addr).maxLength - view.xlat addr ∨
      view.AccessPasses call.rejectAll addr len
  else
    (view.sizeByAddress addr len = view.sizeByOffset addr len ∧
      view.sizeByAddress addr len ≤ 8) ∨
    (¬view.ValidPasses call.acceptAll addr len ∧ ¬view.AccessPasses call.acceptAll addr len)

def CutsAgree (view : AccessView page) : Prop :=
  ∀ call : AccessCall, call.attrs.memory = false → ∀ addr len, addr < 2 ^ 64 → 0 < len →
    len < 2 ^ 64 → view.CutsAgreeAt call addr len

/-- For every callback, address, length and direction, `address_space_access_valid` says yes
exactly if the access ends without `MEMTX_DECODE_ERROR`. -/
def Predicts (view : AccessView page) : Prop :=
  ∀ call : AccessCall, call.attrs.memory = false → ∀ addr len, addr < 2 ^ 64 → 0 < len →
    len < 2 ^ 64 → ∀ d e, view.Dispatches d → view.Dispatches e →
    ((∃ fuel, flatviewAccessValid view.regions page call fuel d addr len = .ok true) ↔
      ∃ fuel result, flatviewAccess view.regions page call fuel e addr len = .ok result ∧
        result &&& memtxDecodeError = 0)

theorem predicts_iff_passes (view : AccessView page) :
    view.Predicts ↔
      ∀ call : AccessCall, call.attrs.memory = false → ∀ addr len, addr < 2 ^ 64 → 0 < len →
        len < 2 ^ 64 → (view.ValidPasses call addr len ↔ view.AccessPasses call addr len) := by
  constructor
  · intro predicts call plain addr len low some small
    obtain ⟨d, dispatch⟩ := view.exists_dispatch
    have same := predicts call plain addr len low some small d d dispatch dispatch
    rw [flatviewAccessValid_iff dispatch.reads low,
      flatviewAccess_iff plain dispatch.reads low (Nat.ne_of_gt some)] at same
    exact same
  · intro same call plain addr len low some small d e dispatch other
    rw [flatviewAccessValid_iff dispatch.reads low,
      flatviewAccess_iff plain other.reads low (Nat.ne_of_gt some)]
    exact same call plain addr len low some small

/-! ### Directly accessible memory -/

theorem sliceOf_xlat (mrs : DispatchSection) {offset : Nat}
    (covers : (sliceOf mrs offset size).Covers addr) (low : addr < 2 ^ 64)
    (fits : offset + size ≤ mrs.size) (bounded : mrs.offsetWithinRegion + mrs.size < 2 ^ 64) :
    (addr + 2 ^ 64 - (sliceOf mrs offset size).offsetWithinAddressSpace) % 2 ^ 64 =
      addr - (mrs.offsetWithinAddressSpace + offset) ∧
    ((addr + 2 ^ 64 - (sliceOf mrs offset size).offsetWithinAddressSpace) % 2 ^ 64 +
      (sliceOf mrs offset size).offsetWithinRegion) % 2 ^ 64 =
      mrs.offsetWithinRegion + (addr - mrs.offsetWithinAddressSpace) := by
  obtain ⟨after, before⟩ := covers
  change mrs.offsetWithinAddressSpace + offset ≤ addr at after
  change addr < mrs.offsetWithinAddressSpace + offset + size at before
  have own : (addr + 2 ^ 64 - (mrs.offsetWithinAddressSpace + offset)) % 2 ^ 64 =
      addr - (mrs.offsetWithinAddressSpace + offset) := by omega
  refine ⟨own, ?_⟩
  dsimp only [sliceOf]
  rw [own]
  split
  · omega
  · omega

section

variable (direct : view.direct call addr = true)
include direct

/-- A direct access starts in the used part of its block; it is cut there if the length is cut
at the end of the section at all. -/
theorem direct_backed (low : addr < 2 ^ 64) (len : Nat) :
    view.xlat addr < (view.region addr).usedLength ∧
      ((view.found addr len).plen = len ∨
        (view.found addr len).plen ≤ (view.region addr).maxLength - view.xlat addr) := by
  have supports : memoryRegionSupportsDirectAccess (view.region addr) = true :=
    (Bool.and_eq_true_iff.mp direct).1
  unfold region AccessView.mr xlat found at *
  cases isPiece : (viewPieces page view.ranges).find? fun piece => decide (piece.mrs.Covers addr)
  with
  | none =>
    have isUnassigned : sectionAt page view.ranges addr = unassignedSection := by
      rw [sectionAt, isPiece]
    rw [isUnassigned] at supports
    cases supports
  | some piece =>
    have isSection : sectionAt page view.ranges addr = piece.mrs := by
      rw [sectionAt, isPiece]
    have covers : piece.mrs.Covers addr := by simpa using List.find?_some isPiece
    obtain ⟨fr, member, inRange⟩ := List.mem_flatMap.mp (List.mem_of_find?_eq_some isPiece)
    obtain ⟨offset, size, isSlice, fits⟩ :=
      (rangeSection_tile page view.ordered member).slices piece inRange
    rw [isSection, isSlice] at supports ⊢
    rw [isSlice] at covers
    obtain ⟨used, max, bounded⟩ := view.backed fr member supports
    have size_eq : (rangeSection fr).size = fr.addr.size.toNat := rfl
    obtain ⟨offset_eq, xlat_eq⟩ := sliceOf_xlat (rangeSection fr) covers low fits
      (show fr.offsetInRegion + (rangeSection fr).size < 2 ^ 64 by omega)
    obtain ⟨after, before⟩ := covers
    change (rangeSection fr).offsetWithinAddressSpace + offset ≤ addr at after
    change addr < (rangeSection fr).offsetWithinAddressSpace + offset + size at before
    have xlat : (foundIn view.regions (sliceOf (rangeSection fr) offset size) addr 0).xlat =
          fr.offsetInRegion + (addr - (rangeSection fr).offsetWithinAddressSpace) := xlat_eq
    rw [xlat]
    refine ⟨show _ < (view.regions fr.mr).usedLength by omega, ?_⟩
    dsimp only [foundIn]
    rw [offset_eq]
    split
    · right
      change min (size - _) len ≤ (view.regions fr.mr).maxLength - _
      omega
    · exact Or.inl rfl

/-- A direct access that is not cut is predicted to be fine, whatever comes behind. -/
theorem validPasses_of_whole (some : len ≠ 0)
    (whole : (view.found addr len).plen = len) : view.ValidPasses call addr len := by
  apply passes_of_piece some
  rw [validPiece, direct, if_pos rfl, whole]

/-! ### Where the cuts agree -/

theorem accessPiece_of_direct (low : addr < 2 ^ 64)
    (fits : (view.found addr len).plen ≤ (view.region addr).maxLength - view.xlat addr) :
    view.accessPiece call addr len = view.validPiece call addr len := by
  have used := (direct_backed direct low len).1
  rw [accessPiece, validPiece, direct, if_pos rfl, if_pos rfl, if_pos used, Nat.min_eq_left fits]

end

/-- Where the two sizes are the same and small, so are the pieces, unless they are empty. -/
theorem accessPiece_of_same (indirect : view.direct call addr = false)
    (same : view.sizeByAddress addr len = view.sizeByOffset addr len)
    (small : view.sizeByAddress addr len ≤ 8) (some : view.sizeByAddress addr len ≠ 0) :
    view.accessPiece call addr len = view.validPiece call addr len := by
  have known : view.sizeByAddress addr len ∈ [1, 2, 4, 8] :=
    (memoryAccessSize_small small).resolve_left some
  have whole : view.sizeByAddress addr len % 2 ^ 32 = view.sizeByAddress addr len :=
    Nat.mod_eq_of_lt (Nat.lt_of_le_of_lt small (by decide))
  rw [accessPiece, validPiece, indirect, if_neg Bool.false_ne_true, if_neg Bool.false_ne_true,
    ← same, whole]
  simp [known]

theorem CutsAgree.accessPasses (agree : view.CutsAgree) (plain : call.attrs.memory = false)
    (passes : view.ValidPasses call addr len) (low : addr < 2 ^ 64) (small : len < 2 ^ 64) :
    view.AccessPasses call addr len := by
  unfold ValidPasses at passes
  induction passes with
  | done addr => exact .done addr
  | @more addr len l some takes rest ih =>
    have further := ih (addrAfter_lt addr l) (lenAfter_lt len l)
    have agrees := agree call plain addr len low (Nat.pos_of_ne_zero some) small
    unfold CutsAgreeAt at agrees
    cases direct : view.direct call addr with
    | true =>
      rw [direct, if_pos rfl] at agrees
      cases agrees with
      | inl fits =>
        exact .more some ((accessPiece_of_direct direct low fits).trans takes) further
      | inr behind =>
        exact behind.mono ⟨rfl, rfl⟩ fun _ _ _ _ never => nomatch never
    | false =>
      rw [direct, if_neg (by decide)] at agrees
      cases agrees with
      | inr neither => exact absurd (ValidPasses.acceptAll (.more some takes rest)) neither.1
      | inl same =>
        have size := (validPiece_indirect direct takes).1
        by_cases empty : l = 0
        · -- A piece of no bytes leads back to where the walk stands.
          rw [empty, addrAfter, lenAfter, Nat.add_zero, Nat.sub_zero, Nat.mod_eq_of_lt low,
            Nat.add_mod_right, Nat.mod_eq_of_lt small] at further
          exact further
        · have piece := accessPiece_of_same direct same.1 same.2 (size ▸ empty)
          exact .more some (piece.trans takes) further

theorem CutsAgree.validPasses (agree : view.CutsAgree) (plain : call.attrs.memory = false)
    (passes : view.AccessPasses call addr len) (low : addr < 2 ^ 64) (small : len < 2 ^ 64) :
    view.ValidPasses call addr len := by
  unfold AccessPasses at passes
  induction passes with
  | done addr => exact .done addr
  | @more addr len l some takes rest ih =>
    have further := ih (addrAfter_lt addr l) (lenAfter_lt len l)
    have agrees := agree call plain addr len low (Nat.pos_of_ne_zero some) small
    unfold CutsAgreeAt at agrees
    cases direct : view.direct call addr with
    | true =>
      cases (direct_backed direct low len).2 with
      | inr fits =>
        exact .more some ((accessPiece_of_direct direct low fits).symm.trans takes) further
      | inl whole => exact validPasses_of_whole direct some whole
    | false =>
      rw [direct, if_neg (by decide)] at agrees
      cases agrees with
      | inr neither =>
        have all : view.AccessPasses call.acceptAll addr len :=
          AccessPasses.mono (.more some takes rest) (sameAccess_acceptAll call)
            fun _ _ _ _ _ => rfl
        exact absurd all neither.2
      | inl same =>
        obtain ⟨size, known, -⟩ := accessPiece_indirect direct takes
        have positive : view.sizeByAddress addr len ≠ 0 := by
          rw [same.1, size]
          intro zero
          rw [zero] at known
          exact absurd known (by decide)
        have piece := accessPiece_of_same direct same.1 same.2 positive
        exact .more some (piece.symm.trans takes) further

/-! ### Where they differ -/

theorem found_plen_again {shorter : Nat} (le : shorter ≤ (view.found addr len).plen) :
    (view.found addr shorter).plen = shorter := by
  dsimp only [found, foundIn] at le ⊢
  by_cases ram : memoryRegionIsRam
      (regionOf view.regions (sectionAt page view.ranges addr).mr).toMemoryRegion = true
  · rw [if_pos ram] at le ⊢
    omega
  · exact if_neg ram

/-- A small size by one place, given as the length, leaves a smaller size as it was. -/
theorem memoryAccessSize_found {place other : Nat}
    (isSize : memoryAccessSize (view.region addr).ops (view.found addr len).plen place = size)
    (small : size ≤ 8)
    (le : memoryAccessSize (view.region addr).ops (view.found addr len).plen other ≤ size) :
    memoryAccessSize (view.region addr).ops (view.found addr size).plen other =
      memoryAccessSize (view.region addr).ops (view.found addr len).plen other := by
  subst isSize
  rw [found_plen_again (memoryAccessSize_le small)]
  exact memoryAccessSize_again small le

theorem direct_rejectOne (mr : DispatchMr) (place size : Nat) :
    view.direct (call.rejectOne mr place size) addr = view.direct call addr := rfl

theorem rejectOne_refuses (view : AccessView page) (call : AccessCall) (addr size : Nat) :
    view.allows (call.rejectOne (view.mr addr) (view.xlat addr) size) addr size = false := by
  unfold allows
  cases isMr : view.mr addr with
  | region number => simp [memoryRegionAccessValid, AccessCall.rejectOne]
  | ioMemUnassigned => rfl
  | subpage index => rfl

theorem rejectOne_allows (different : size ≠ rejected)
    (allowed : view.allows call.acceptAll addr size = true) (mr : DispatchMr) (place : Nat) :
    view.allows (call.rejectOne mr place rejected) addr size = true := by
  apply (sameAccess_rejectOne call mr place rejected).allows _ allowed
  intro number _
  simp [AccessCall.rejectOne, different]

theorem size_mod_of_large (large : 8 < view.sizeByAddress addr len) :
    8 < view.sizeByAddress addr len % 2 ^ 32 := by
  unfold sizeByAddress memoryAccessSize at large ⊢
  generalize floorEq : pow2floor (min ((view.found addr len).plen % 2 ^ 32)
    (accessSizeMax (view.region addr).ops addr)) = floor at large ⊢
  have bounded := pow2floor_le (min ((view.found addr len).plen % 2 ^ 32)
    (accessSizeMax (view.region addr).ops addr))
  unfold hwaddrOfInt at large ⊢
  split
  · next low =>
    rw [if_pos low] at large
    omega
  · omega

/-- The calls that differ from this one in their callback, over any length, are predicted. -/
def PredictedAt (view : AccessView page) (call : AccessCall) (addr : Nat) : Prop :=
  ∀ accepts len, 0 < len → len < 2 ^ 64 →
    (view.ValidPasses { call with accepts } addr len ↔
      view.AccessPasses { call with accepts } addr len)

theorem le_eight_of_mem (known : size ∈ [1, 2, 4, 8]) : 0 < size ∧ size ≤ 8 := by
  simp only [List.mem_cons, List.not_mem_nil, or_false] at known
  omega

section

variable (predicted : view.PredictedAt call addr)
include predicted

section

variable (some : 0 < len) (fits : len < 2 ^ 64) (indirect : view.direct call addr = false)
include some fits indirect

/-- A callback that the prediction asks and is refused by. -/
theorem PredictedAt.not_accessPasses :
    ¬view.AccessPasses (call.rejectOne (view.mr addr) (view.xlat addr)
      (view.sizeByAddress addr len % 2 ^ 32)) addr len := by
  intro access
  obtain ⟨l, takes, -⟩ :=
    (passes_iff (Nat.ne_of_gt some)).mp ((predicted _ len some fits).mpr access)
  obtain ⟨size, allowed⟩ := validPiece_indirect (by exact indirect) takes
  rw [← size] at allowed
  exact absurd allowed (Bool.eq_false_iff.mp (rejectOne_refuses view call addr _))

/-- A callback that the access asks and is refused by. -/
theorem PredictedAt.not_validPasses :
    ¬view.ValidPasses (call.rejectOne (view.mr addr) (view.xlat addr)
      (view.sizeByOffset addr len)) addr len := by
  intro valid
  obtain ⟨l, takes, -⟩ :=
    (passes_iff (Nat.ne_of_gt some)).mp ((predicted _ len some fits).mp valid)
  obtain ⟨size, -, allowed⟩ := accessPiece_indirect (by exact indirect) takes
  rw [← size] at allowed
  exact absurd allowed (Bool.eq_false_iff.mp (rejectOne_refuses view call addr _))

/-- The access never takes a large size, so that only the prediction depends on the answer of
the callback for it. -/
theorem PredictedAt.small (access : view.AccessPasses call.acceptAll addr len) :
    view.sizeByAddress addr len ≤ 8 := by
  apply Nat.le_of_not_lt
  intro large
  apply predicted.not_accessPasses some fits indirect
  have large := size_mod_of_large large
  generalize view.sizeByAddress addr len % 2 ^ 32 = rejected at large
  apply access.mono (sameAccess_rejectOne call (view.mr addr) (view.xlat addr) rejected)
  intro number place size known _
  have different : size ≠ rejected :=
    Nat.ne_of_lt (Nat.lt_of_le_of_lt (le_eight_of_mem known).2 large)
  simp [AccessCall.rejectOne, different]

end

/-- With the size by the offset as the length, the access is one piece. The prediction starts
with a smaller one, which the callback can reject. -/
theorem PredictedAt.not_less (indirect : view.direct call addr = false)
    (known : view.sizeByOffset addr len ∈ [1, 2, 4, 8])
    (allowed : view.allows call.acceptAll addr (view.sizeByOffset addr len) = true) :
    ¬view.sizeByAddress addr len < view.sizeByOffset addr len := by
  intro less
  obtain ⟨some, small⟩ := le_eight_of_mem known
  generalize isSize : view.sizeByOffset addr len = size at *
  have byOffset : view.sizeByOffset addr size = size :=
    (memoryAccessSize_found isSize small isSize.le).trans isSize
  have byAddress : view.sizeByAddress addr size = view.sizeByAddress addr len :=
    memoryAccessSize_found isSize small less.le
  apply predicted.not_accessPasses some (Nat.lt_of_le_of_lt small (by decide)) indirect
  rw [byAddress, Nat.mod_eq_of_lt (by omega)]
  apply passes_of_piece (Nat.ne_of_gt some)
  rw [accessPiece, direct_rejectOne, indirect, if_neg Bool.false_ne_true, byOffset]
  exact if_pos ⟨known, rejectOne_allows (Nat.ne_of_gt less) allowed _ _⟩

/-- With the size by the address as the length, the prediction is one piece. The access starts
with a smaller one. -/
theorem PredictedAt.not_more (indirect : view.direct call addr = false)
    (small : view.sizeByAddress addr len ≤ 8)
    (allowed : view.allows call.acceptAll addr (view.sizeByAddress addr len) = true) :
    ¬view.sizeByOffset addr len < view.sizeByAddress addr len := by
  intro more
  generalize isSize : view.sizeByAddress addr len = size at *
  have some : 0 < size := Nat.lt_of_le_of_lt (Nat.zero_le _) more
  have byAddress : view.sizeByAddress addr size = size :=
    (memoryAccessSize_found isSize small isSize.le).trans isSize
  have byOffset : view.sizeByOffset addr size = view.sizeByOffset addr len :=
    memoryAccessSize_found isSize small more.le
  apply predicted.not_validPasses some (Nat.lt_of_le_of_lt small (by decide)) indirect
  rw [byOffset]
  apply passes_of_piece (Nat.ne_of_gt some)
  rw [validPiece, direct_rejectOne, indirect, if_neg Bool.false_ne_true, byAddress,
    Nat.mod_eq_of_lt (by omega)]
  exact if_pos (rejectOne_allows (Nat.ne_of_gt more) allowed _ _)

theorem PredictedAt.cutsAgreeAt (low : addr < 2 ^ 64) (some : 0 < len) (fits : len < 2 ^ 64) :
    view.CutsAgreeAt call addr len := by
  unfold CutsAgreeAt
  cases direct : view.direct call addr with
  | true =>
    rw [if_pos rfl]
    apply (direct_backed direct low len).2.symm.imp_right
    intro whole
    apply (predicted _ len some fits).mp
    exact validPasses_of_whole direct (Nat.ne_of_gt some) whole
  | false =>
    rw [if_neg (by decide)]
    by_cases access : view.AccessPasses call.acceptAll addr len
    · left
      have small := predicted.small some fits direct access
      have valid : view.ValidPasses call.acceptAll addr len :=
        (predicted _ len some fits).mpr access
      obtain ⟨_, takesAccess, -⟩ := (passes_iff (Nat.ne_of_gt some)).mp access
      obtain ⟨_, takesValid, -⟩ := (passes_iff (Nat.ne_of_gt some)).mp valid
      have direct' : view.direct call.acceptAll addr = false := direct
      obtain ⟨isOffset, known, allowed⟩ := accessPiece_indirect direct' takesAccess
      obtain ⟨isAddress, allowed'⟩ := validPiece_indirect direct' takesValid
      rw [← isOffset] at known allowed
      rw [← isAddress, Nat.mod_eq_of_lt (by omega)] at allowed'
      have notLess := predicted.not_less direct known allowed
      have notMore := predicted.not_more direct small allowed'
      exact ⟨Nat.le_antisymm (Nat.le_of_not_lt notMore) (Nat.le_of_not_lt notLess), small⟩
    · right
      exact ⟨fun valid => access ((predicted _ len some fits).mp valid), access⟩

end

/-- A device accessed by up to four bytes at their alignment, the first page of the guest's view
of which starts at its offset 2. -/
def shiftedView : AccessView ⟨12, by decide, by decide⟩ where
  ranges := [⟨0, 2, ⟨0x1000, 0x1000⟩, 0, true, false, false, false⟩]
  ordered := ⟨by decide, by decide, by decide, by decide⟩
  few := by decide +kernel
  regions := fun _ =>
    { terminates := true, ops := ⟨1, 4, false, false, false⟩, ramDevice := false,
      usedLength := 0, maxLength := 0 }
  backed := by decide

def plainRead : AccessCall where
  accepts := fun _ _ _ _ _ => true
  isWrite := false
  attrs := ⟨false, 0, false, false, false, 0, 0, true⟩

end AccessView

end QemuGzvm.Physmem
