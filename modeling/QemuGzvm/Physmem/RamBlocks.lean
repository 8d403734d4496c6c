import Mathlib.Algebra.Order.Group.Nat
import Mathlib.Data.Finset.Max
import Mathlib.Data.List.Pairwise
import QemuGzvm.Library.Best
import QemuGzvm.Library.CheckedArray
import QemuGzvm.Library.Transition

/-!
Contract: the list of RAM blocks (`system/physmem.c`).

Owns:
- `find_ram_offset`, `dirty_memory_extend`, `cpu_physical_memory_set_dirty_range` as
  `ram_block_add` calls it, `ram_block_add`, `qemu_ram_alloc_internal`, `qemu_ram_free` and the
  reclaim that follows it;
- what a gap of the RAM address space is, and the gap that `find_ram_offset` returns.

`ram_addr_t` has 64 bit, and its sums and roundings wrap. A target page has at least 12 bit
(`minimum_page_bits` of the machine). What the host answers to an allocation is part of the
operation. `qemu_ram_alloc_from_fd` returns `NULL` at once in this tree, so every block comes
from `qemu_ram_alloc_internal`.
-/

namespace QemuGzvm.Physmem

open QemuGzvm.Library

/-! ### Sizes -/

def ramAddrMax : Nat := 2 ^ 64 - 1

def dirtyMemoryBlockSize : Nat := 256 * 1024 * 8

def roundUp (n d : Nat) : Nat := (n + (d - 1)) % 2 ^ 64 / d * d

/-- The page sizes of the guest and the host, whose numbers of bytes are of type `int`. -/
structure PageSizes where
  targetPageBits : Nat
  hostPageBits : Nat
  minimumPageBits : 12 ≤ targetPageBits
  targetFits : targetPageBits < 31
  hostFits : hostPageBits < 31

namespace PageSizes

def targetPageSize (sizes : PageSizes) : Nat := 2 ^ sizes.targetPageBits

def align (sizes : PageSizes) : Nat := max (2 ^ sizes.hostPageBits) sizes.targetPageSize

/-- `BITS_PER_LONG << TARGET_PAGE_BITS` -/
def granule (sizes : PageSizes) : Nat := 64 * sizes.targetPageSize

end PageSizes

/-! ### State -/

/-- One block of a dirty bitmap, of `DIRTY_MEMORY_BLOCK_SIZE` bits. -/
abbrev DirtyBitmap := Nat → Bool

/-- `DIRTY_MEMORY_VGA`, `DIRTY_MEMORY_CODE` and `DIRTY_MEMORY_MIGRATION` -/
abbrev DirtyClient := Fin 3

structure RAMBlock where
  host : Option Nat
  offset : Nat
  usedLength : Nat
  maxLength : Nat
  guestMemfd : Bool
deriving DecidableEq, Repr

structure RAMList where
  blocks : List RAMBlock
  dirtyMemory : DirtyClient → List DirtyBitmap
  numDirtyBlocks : Nat
  /-- Blocks that are off the list and wait for `reclaim_ramblock`. -/
  reclaiming : List RAMBlock
  /-- The mutex was left locked. -/
  locked : Bool

def RAMList.empty : RAMList where
  blocks := []
  dirtyMemory := fun _ => []
  numDirtyBlocks := 0
  reclaiming := []
  locked := false

/-! ### The search for an offset -/

variable (sizes : PageSizes) {d n : Nat}

/-- The first address behind a block that another one could start at. -/
def RAMBlock.candidate (block : RAMBlock) : Nat :=
  roundUp ((block.offset + block.maxLength) % 2 ^ 64) sizes.granule

/-- `next`: the start of the first block at or behind `candidate`. -/
def nextOffset (blocks : List RAMBlock) (candidate : Nat) : Nat :=
  blocks.foldl
    (fun next block => if candidate ≤ block.offset then min next block.offset else next) ramAddrMax

/-- The pair of `offset` and `mingap` after one turn of the loop. -/
def findRamOffsetStep (blocks : List RAMBlock) (size : Nat) (best : Nat × Nat)
    (block : RAMBlock) : Nat × Nat :=
  let candidate := block.candidate sizes
  let next := nextOffset blocks candidate
  if size ≤ next - candidate ∧ next - candidate < best.2 then (candidate, next - candidate)
  else best

def findRamOffset (blocks : List RAMBlock) (size : Nat) : Checked Nat :=
  if size = 0 then .error .assertion
  else if blocks.isEmpty then .ok 0
  else
    let best := blocks.foldl (findRamOffsetStep sizes blocks size) (ramAddrMax, ramAddrMax)
    -- "Failed to find gap of requested size", `abort`
    if best.1 = ramAddrMax then .error .assertion else .ok best.1

/-! ### Dirty bitmaps -/

def newNumBlocks (newRamSize : Nat) : Nat :=
  (newRamSize + (dirtyMemoryBlockSize - 1)) / dirtyMemoryBlockSize % 2 ^ 32

def dirtyMemoryExtend (s : RAMList) (newRamSize : Nat) : Checked RAMList :=
  if newNumBlocks newRamSize ≤ s.numDirtyBlocks then .ok s
  else if ∀ client, s.numDirtyBlocks ≤ (s.dirtyMemory client).length then
    .ok { s with
      dirtyMemory := fun client => (s.dirtyMemory client).take s.numDirtyBlocks ++
        List.replicate (newNumBlocks newRamSize - s.numDirtyBlocks) fun _ => false
      numDirtyBlocks := newNumBlocks newRamSize }
  else .error .outOfBounds

/-- `bitmap_set_atomic` of `count` bits in the block `idx` of every client. -/
def bitmapSetAtomic (dirty : DirtyClient → List DirtyBitmap) (idx offset count : Nat) :
    Checked (DirtyClient → List DirtyBitmap) :=
  if (∀ client, idx < (dirty client).length) ∧ offset + count ≤ dirtyMemoryBlockSize then
    .ok fun client => (dirty client).modify idx
      fun bitmap bit => bitmap bit || (decide (offset ≤ bit) && decide (bit < offset + count))
  else .error .outOfBounds

/-- The loop of `cpu_physical_memory_set_dirty_range`. -/
def setDirtyPages (stop : Nat) : Nat → Nat → Nat → Nat → Nat → (DirtyClient → List DirtyBitmap) →
    Checked (DirtyClient → List DirtyBitmap)
  | 0, _, _, _, _, _ => .error .unfinished
  | fuel + 1, page, idx, offset, base, dirty =>
    if page < stop then
      let next := min stop (base + dirtyMemoryBlockSize)
      (bitmapSetAtomic dirty idx offset (next - page)).bind
        (setDirtyPages stop fuel next (idx + 1) 0 (base + dirtyMemoryBlockSize))
    else .ok dirty

/-- `cpu_physical_memory_set_dirty_range` with `DIRTY_CLIENTS_ALL`. -/
def cpuPhysicalMemorySetDirtyRange (s : RAMList) (start length : Nat) : Checked RAMList :=
  let stop := roundUp ((start + length) % 2 ^ 64) sizes.targetPageSize / sizes.targetPageSize
  let page := start / sizes.targetPageSize
  let offset := page % dirtyMemoryBlockSize
  (setDirtyPages stop (stop - page + 1) page (page / dirtyMemoryBlockSize) offset (page - offset)
    s.dirtyMemory).map fun dirty => { s with dirtyMemory := dirty }

/-! ### Adding and freeing blocks -/

/-- The insertion before the first block that is smaller. -/
def insertBlock (newBlock : RAMBlock) : List RAMBlock → List RAMBlock
  | [] => [newBlock]
  | block :: rest =>
    if block.maxLength < newBlock.maxLength then newBlock :: block :: rest
    else block :: insertBlock newBlock rest

/-- `ram_block_add`, with the answer of `qemu_anon_ram_alloc`. It returns the block added, or
none with an error. -/
def ramBlockAdd (s : RAMList) (newBlock : RAMBlock) (anonymous : Option Nat) :
    Checked (Option RAMBlock × RAMList) :=
  (findRamOffset sizes s.blocks newBlock.maxLength).bind fun offset =>
    match newBlock.host.or anonymous with
    | none => .ok (none, s)
    | some host =>
      -- "KVM required": the way to `out_free` does not unlock the list.
      if newBlock.guestMemfd then .ok (none, { s with locked := true })
      else
        let added := { newBlock with host := some host, offset := offset }
        let ramSize := (offset + newBlock.maxLength) % 2 ^ 64 / sizes.targetPageSize
        (dirtyMemoryExtend s ramSize).bind fun s =>
          let s := { s with blocks := insertBlock added s.blocks }
          (cpuPhysicalMemorySetDirtyRange sizes s offset newBlock.usedLength).map
            fun s => (some added, s)

structure RamFlags where
  prealloc : Bool
  shared : Bool
  privateMapping : Bool
  guestMemfd : Bool
deriving DecidableEq, Repr

/-- What the machine and the host answer while a block is allocated. -/
structure HostAnswers where
  auxRamShare : Bool
  /-- `qemu_ram_get_shared_fd` gives a file. -/
  sharedFd : Bool
  /-- `qemu_anon_ram_alloc` -/
  anonymous : Option Nat
deriving DecidableEq, Repr

def qemuRamAllocInternal (s : RAMList) (size maxSize : Nat) (host : Option Nat)
    (flags : RamFlags) (answers : HostAnswers) : Checked (Option RAMBlock × RAMList) :=
  if (flags.shared && flags.privateMapping) || host.isNone == flags.prealloc ||
      decide (maxSize < size) then .error .assertion
  else if host.isNone && (flags.shared || (!flags.privateMapping && answers.auxRamShare)) &&
      !answers.sharedFd then .ok (none, s)
  else
    -- A file that could be opened does not help: `qemu_ram_alloc_from_fd` returns `NULL`.
    ramBlockAdd sizes s
      { host := host
        offset := 0
        usedLength := roundUp size sizes.align
        maxLength := roundUp maxSize sizes.align
        guestMemfd := flags.guestMemfd } answers.anonymous

def qemuRamFree (s : RAMList) : Option RAMBlock → RAMList
  | none => s
  | some block =>
    { s with blocks := s.blocks.erase block, reclaiming := block :: s.reclaiming }

inductive RamOp where
  | alloc (size maxSize : UInt64) (host : Option Nat) (flags : RamFlags) (answers : HostAnswers)
  | free (block : Option RAMBlock)
  | reclaim (block : RAMBlock)

/-- One operation. None can start while the mutex is left locked; a block that is freed is on
the list. -/
def RamOp.next (s : RAMList) : RamOp → Option RAMList
  | .alloc size maxSize host flags answers =>
    if s.locked then none
    else ((qemuRamAllocInternal sizes s size.toNat maxSize.toNat host flags answers).map
      Prod.snd).toOption
  | .free block =>
    if s.locked || block.any (· ∉ s.blocks) then none else some (qemuRamFree s block)
  | .reclaim block =>
    if block ∈ s.reclaiming then some { s with reclaiming := s.reclaiming.erase block } else none

def ramSystem : LabelledSystem RAMList RamOp := .ofNext RAMList.empty (RamOp.next sizes)

/-! ### Sizes and rounding -/

section Sizes

variable {sizes}

theorem PageSizes.targetPageSize_pos : 0 < sizes.targetPageSize := Nat.two_pow_pos _

theorem PageSizes.le_targetPageSize : 2 ^ 12 ≤ sizes.targetPageSize :=
  Nat.pow_le_pow_right Nat.zero_lt_two sizes.minimumPageBits

theorem PageSizes.targetPageSize_dvd_granule : sizes.targetPageSize ∣ sizes.granule :=
  Nat.dvd_mul_left _ _

theorem PageSizes.granule_dvd : sizes.granule ∣ 2 ^ 64 := by
  have sixtyFour : sizes.granule = 2 ^ (6 + sizes.targetPageBits) := (Nat.pow_add 2 6 _).symm
  rw [sixtyFour]
  have fits := sizes.targetFits
  exact Nat.pow_dvd_pow 2 (by omega)

theorem PageSizes.granule_pos : 0 < sizes.granule :=
  Nat.mul_pos (by decide) PageSizes.targetPageSize_pos

/-- The alignment of the lengths is one of both kinds of pages. -/
theorem PageSizes.targetPageSize_dvd_align : sizes.targetPageSize ∣ sizes.align := by
  unfold PageSizes.align PageSizes.targetPageSize
  cases Nat.le_total sizes.hostPageBits sizes.targetPageBits with
  | inl le =>
    have isMax := Nat.max_eq_right (Nat.pow_le_pow_right Nat.zero_lt_two le)
    exact ⟨1, isMax.trans (Nat.mul_one _).symm⟩
  | inr le =>
    rw [Nat.max_eq_left (Nat.pow_le_pow_right Nat.zero_lt_two le)]
    exact Nat.pow_dvd_pow 2 le

end Sizes

theorem dvd_roundUp (n d : Nat) : d ∣ roundUp n d := Nat.dvd_mul_left _ _

theorem roundUp_lt (n d : Nat) : roundUp n d < 2 ^ 64 :=
  Nat.lt_of_le_of_lt (Nat.div_mul_le_self _ _) (Nat.mod_lt _ (by decide))

/-- Rounding up stays below every multiple that is not below the number, or wraps to 0. -/
theorem roundUp_le {m : Nat} (positive : 0 < d) (multiple : d ∣ m) (le : n ≤ m) :
    roundUp n d ≤ m := by
  obtain ⟨k, rfl⟩ := multiple
  have below : (n + (d - 1)) % 2 ^ 64 / d < k + 1 := by
    rw [Nat.div_lt_iff_lt_mul positive, Nat.add_mul, Nat.one_mul, Nat.mul_comm k]
    omega
  rw [roundUp, Nat.mul_comm d k]
  exact Nat.mul_le_mul_right d (Nat.le_of_lt_succ below)

theorem le_roundUp (positive : 0 < d) (fits : n + (d - 1) < 2 ^ 64) :
    n ≤ roundUp n d := by
  rw [roundUp, Nat.mod_eq_of_lt fits]
  have split := Nat.div_add_mod (n + (d - 1)) d
  have rest := Nat.mod_lt (n + (d - 1)) positive
  rw [Nat.mul_comm] at split
  omega

theorem roundUp_of_dvd (positive : 0 < d) (multiple : d ∣ n) (fits : n + (d - 1) < 2 ^ 64) :
    roundUp n d = n :=
  Nat.le_antisymm (roundUp_le positive multiple (Nat.le_refl n)) (le_roundUp positive fits)

theorem le_roundUp_or_eq_zero (positive : 0 < d) (fits : n < 2 ^ 64) :
    n ≤ roundUp n d ∨ roundUp n d = 0 := by
  by_cases wraps : n + (d - 1) < 2 ^ 64
  · exact Or.inl (le_roundUp positive wraps)
  · have less : (n + (d - 1)) % 2 ^ 64 < d := by omega
    rw [roundUp, Nat.div_eq_of_lt less, Nat.zero_mul]
    exact Or.inr rfl

/-! ### Gaps -/

def RAMBlock.Apart (a b : RAMBlock) : Prop :=
  a.offset + a.maxLength ≤ b.offset ∨ b.offset + b.maxLength ≤ a.offset

instance : Std.Symm RAMBlock.Apart := ⟨fun _ _ => Or.symm⟩

def Free (blocks : List RAMBlock) (start len : Nat) : Prop :=
  start + len ≤ ramAddrMax ∧
    ∀ block ∈ blocks, start + len ≤ block.offset ∨ block.offset + block.maxLength ≤ start

/-- The free range from the first address that is usable behind some block up to the next
block, or to the end of the address space. -/
structure IsGap (blocks : List RAMBlock) (start len : Nat) : Prop where
  behind : ∃ block ∈ blocks, start = block.candidate sizes
  free : Free blocks start len
  ends : start + len = ramAddrMax ∨ ∃ block ∈ blocks, block.offset = start + len

structure Placed (blocks : List RAMBlock) : Prop where
  inside : ∀ block ∈ blocks, block.offset + block.maxLength ≤ ramAddrMax
  nonempty : ∀ block ∈ blocks, 0 < block.maxLength
  aligned : ∀ block ∈ blocks, sizes.granule ∣ block.offset
  apart : blocks.Pairwise RAMBlock.Apart

section Search

variable {sizes} {blocks : List RAMBlock} {block : RAMBlock} {len start size offset : Nat}

theorem nextOffset_eq_scanBest (blocks : List RAMBlock) (candidate : Nat) :
    nextOffset blocks candidate =
      scanBest (fun offered best => decide (offered < best))
        (fun block : RAMBlock => if candidate ≤ block.offset then some block.offset else none)
        blocks ramAddrMax := by
  grind [nextOffset, scanBest, keepBest, Nat.min_eq_left]

theorem less_followsKey {β : Type} (key : β → Nat) :
    FollowsKey (fun offered best => decide (key offered < key best)) key where
  le := fun less => Nat.le_of_lt (of_decide_eq_true less)
  ge := fun notLess => Nat.le_of_not_lt (of_decide_eq_false notLess)

theorem nextOffset_le_max (blocks : List RAMBlock) (candidate : Nat) :
    nextOffset blocks candidate ≤ ramAddrMax := by
  rw [nextOffset_eq_scanBest]
  exact (less_followsKey id).scanBest_le blocks ramAddrMax

theorem nextOffset_le {candidate : Nat} (member : block ∈ blocks)
    (behind : candidate ≤ block.offset) : nextOffset blocks candidate ≤ block.offset := by
  rw [nextOffset_eq_scanBest]
  exact (less_followsKey id).scanBest_le_offered member (if_pos behind) ramAddrMax

theorem nextOffset_eq (blocks : List RAMBlock) (candidate : Nat) :
    nextOffset blocks candidate = ramAddrMax ∨
      ∃ block ∈ blocks, candidate ≤ block.offset ∧
        block.offset = nextOffset blocks candidate := by
  rw [nextOffset_eq_scanBest]
  cases scanBest_eq_start_or_offered blocks ramAddrMax with
  | inl start => exact Or.inl start
  | inr offered =>
    grind

theorem RAMBlock.candidate_le_max (block : RAMBlock) : block.candidate sizes ≤ ramAddrMax :=
  Nat.le_pred_of_lt (roundUp_lt _ _)

theorem RAMBlock.candidate_ne_max (block : RAMBlock) : block.candidate sizes ≠ ramAddrMax := by
  have even : 2 ∣ block.candidate sizes :=
    Nat.dvd_trans (Nat.dvd_trans (by decide : 2 ∣ 64) (Nat.dvd_mul_right _ _)) (dvd_roundUp _ _)
  intro same
  rw [same] at even
  exact absurd even (by decide)

/-- No block has its start before a candidate and its end behind it. -/
theorem Placed.candidate_apart (placed : Placed sizes blocks) {other : RAMBlock}
    (member : block ∈ blocks) (otherMember : other ∈ blocks) :
    other.offset + other.maxLength ≤ block.candidate sizes ∨
      block.candidate sizes ≤ other.offset := by
  have inside := placed.inside block member
  have fits : block.offset + block.maxLength < 2 ^ 64 := Nat.lt_of_le_pred (by decide) inside
  have rounded : block.candidate sizes =
      roundUp (block.offset + block.maxLength) sizes.granule := by
    rw [RAMBlock.candidate, Nat.mod_eq_of_lt fits]
  rw [rounded]
  cases le_roundUp_or_eq_zero PageSizes.granule_pos fits with
  | inr wrapped => exact Or.inr (wrapped ▸ Nat.zero_le _)
  | inl behind =>
    by_cases same : block = other
    · exact Or.inl (same ▸ behind)
    · cases placed.apart.forall member otherMember same with
      | inl before =>
        exact Or.inr (roundUp_le PageSizes.granule_pos (placed.aligned other otherMember) before)
      | inr after => exact Or.inl (by omega)

theorem Placed.isGap (placed : Placed sizes blocks) (member : block ∈ blocks) :
    IsGap sizes blocks (block.candidate sizes)
      (nextOffset blocks (block.candidate sizes) - block.candidate sizes) := by
  have order : block.candidate sizes ≤ nextOffset blocks (block.candidate sizes) := by
    rcases nextOffset_eq blocks (block.candidate sizes) with last | ⟨other, -, behind, same⟩
    · exact last ▸ block.candidate_le_max
    · exact same ▸ behind
  have whole := Nat.add_sub_cancel' order
  refine ⟨⟨block, member, rfl⟩, ⟨?_, ?_⟩, ?_⟩
  · rw [whole]
    exact nextOffset_le_max _ _
  · intro other otherMember
    rw [whole]
    cases placed.candidate_apart member otherMember with
    | inl before => exact Or.inr before
    | inr behind => exact Or.inl (nextOffset_le otherMember behind)
  · rw [whole]
    rcases nextOffset_eq blocks (block.candidate sizes) with last | ⟨other, otherMember, -, same⟩
    · exact Or.inl last
    · exact Or.inr ⟨other, otherMember, same⟩

/-- A gap ends where the next block starts. -/
theorem IsGap.len_eq (gap : IsGap sizes blocks start len) (placed : Placed sizes blocks) :
    len = nextOffset blocks start - start := by
  have le : start + len ≤ nextOffset blocks start := by
    rcases nextOffset_eq blocks start with last | ⟨other, member, behind, same⟩
    · exact last ▸ gap.free.1
    · rw [← same]
      have some := placed.nonempty other member
      cases gap.free.2 other member with
      | inl before => exact before
      | inr after => omega
  have ge : nextOffset blocks start ≤ start + len := by
    rcases gap.ends with last | ⟨other, member, same⟩
    · exact last ▸ nextOffset_le_max blocks start
    · exact same ▸ nextOffset_le member (same ▸ Nat.le_add_right _ _)
  omega

def offeredGap (sizes : PageSizes) (blocks : List RAMBlock) (size : Nat) (block : RAMBlock) :
    Option (Nat × Nat) :=
  let candidate := block.candidate sizes
  if size ≤ nextOffset blocks candidate - candidate then
    some (candidate, nextOffset blocks candidate - candidate)
  else none

theorem findRamOffset_fold (blocks : List RAMBlock) (size : Nat) :
    blocks.foldl (findRamOffsetStep sizes blocks size) (ramAddrMax, ramAddrMax) =
      scanBest (fun offered best => decide (offered.2 < best.2)) (offeredGap sizes blocks size)
        blocks (ramAddrMax, ramAddrMax) := by
  unfold scanBest
  congr 1
  funext best block
  unfold findRamOffsetStep offeredGap
  by_cases fits : size ≤ nextOffset blocks (block.candidate sizes) - block.candidate sizes
  · simp [fits, keepBest]
  · simp [fits, keepBest]

theorem Placed.offeredGap_eq (placed : Placed sizes blocks) (member : block ∈ blocks)
    (offers : offeredGap sizes blocks size block = some (start, len)) :
    IsGap sizes blocks start len ∧ size ≤ len ∧ start ≠ ramAddrMax := by
  dsimp only [offeredGap] at offers
  split at offers
  · next fits =>
    cases offers
    exact ⟨placed.isGap member, fits, block.candidate_ne_max⟩
  · cases offers

theorem IsGap.offered (gap : IsGap sizes blocks start len) (placed : Placed sizes blocks)
    (fits : size ≤ len) :
    ∃ block ∈ blocks, offeredGap sizes blocks size block = some (start, len) := by
  obtain ⟨block, member, same⟩ := gap.behind
  have length := gap.len_eq placed
  subst same
  refine ⟨block, member, ?_⟩
  rw [offeredGap, if_pos (length ▸ fits), ← length]

section

variable (placed : Placed sizes blocks)
include placed

/-- What the loop of the search leaves: its start, or a smallest gap that fits. -/
theorem Placed.findRamOffset_loop (size : Nat) :
    let best := blocks.foldl (findRamOffsetStep sizes blocks size) (ramAddrMax, ramAddrMax)
    (best = (ramAddrMax, ramAddrMax) ∨
      IsGap sizes blocks best.1 best.2 ∧ size ≤ best.2 ∧ best.1 ≠ ramAddrMax) ∧
    ∀ start len, IsGap sizes blocks start len → size ≤ len → best.2 ≤ len := by
  dsimp only
  rw [findRamOffset_fold]
  constructor
  · cases scanBest_eq_start_or_offered blocks (ramAddrMax, ramAddrMax) with
    | inl start => exact Or.inl start
    | inr offered =>
      obtain ⟨block, member, offers⟩ := offered
      exact Or.inr (placed.offeredGap_eq member offers)
  · intro start len gap fits
    obtain ⟨block, member, offers⟩ := gap.offered placed fits
    exact (less_followsKey Prod.snd).scanBest_le_offered member offers _

theorem Placed.findRamOffset_ok (found : findRamOffset sizes blocks size = .ok offset) :
    (blocks = [] ∧ offset = 0) ∨
      ∃ len, IsGap sizes blocks offset len ∧ size ≤ len ∧
        ∀ start other, IsGap sizes blocks start other → size ≤ other → len ≤ other := by
  obtain ⟨outcome, least⟩ := placed.findRamOffset_loop size
  dsimp only [findRamOffset] at found
  split at found
  · cases found
  split at found
  · next empty =>
    cases found
    exact Or.inl ⟨List.isEmpty_iff.mp empty, rfl⟩
  split at found
  · cases found
  · grind

theorem Placed.findRamOffset_error {fault : Fault} (some : size ≠ 0)
    (failed : findRamOffset sizes blocks size = .error fault) :
    ∀ start len, IsGap sizes blocks start len → len < size := by
  intro start len gap
  obtain ⟨outcome, least⟩ := placed.findRamOffset_loop size
  obtain ⟨block, member, -⟩ := gap.behind
  dsimp only [findRamOffset] at failed
  rw [if_neg some] at failed
  split at failed
  · cases failed
  split at failed
  · next last =>
    cases outcome with
    | inr found => exact absurd last found.2.2
    | inl unchanged =>
      -- A gap of the whole address space would leave no room for the block.
      by_contra fits
      have whole := least start len gap (Nat.le_of_not_lt fits)
      rw [unchanged] at whole
      have inside := placed.inside block member
      have positive := placed.nonempty block member
      have limit := gap.free.1
      cases gap.free.2 block member with
      | inl before => omega
      | inr after => omega
  · cases failed

/-- Above the start of the first block, every free place for a new block is in a gap. -/
theorem Placed.gap_of_free (free : Free blocks start size)
    (some : size ≠ 0) (aligned : sizes.granule ∣ start)
    (above : ∃ block ∈ blocks, block.offset ≤ start) :
    ∃ candidate len, IsGap sizes blocks candidate len ∧ size ≤ len := by
  -- The gap is the one behind the last block that starts below the place.
  have below : (blocks.toFinset.filter (·.offset ≤ start)).Nonempty := by
    obtain ⟨block, member, le⟩ := above
    exact ⟨block, Finset.mem_filter.mpr ⟨List.mem_toFinset.mpr member, le⟩⟩
  obtain ⟨block, filtered, last⟩ := Finset.exists_max_image _ RAMBlock.offset below
  obtain ⟨member, le⟩ := Finset.mem_filter.mp filtered
  rw [List.mem_toFinset] at member
  have ended : block.offset + block.maxLength ≤ start := by
    cases free.2 block member with
    | inl before => omega
    | inr after => exact after
  have room : sizes.granule ≤ 2 ^ 64 - start :=
    Nat.le_of_dvd (by have := free.1; unfold ramAddrMax at this; omega)
      (Nat.dvd_sub PageSizes.granule_dvd aligned)
  have positive : 0 < sizes.granule := PageSizes.granule_pos
  have rounded : block.candidate sizes =
      roundUp (block.offset + block.maxLength) sizes.granule := by
    rw [RAMBlock.candidate, Nat.mod_eq_of_lt (by omega)]
  have behind : block.offset + block.maxLength ≤ block.candidate sizes :=
    rounded ▸ le_roundUp positive (by omega)
  have reached : block.candidate sizes ≤ start := rounded ▸ roundUp_le positive aligned ended
  refine ⟨_, _, placed.isGap member, ?_⟩
  have next : start + size ≤ nextOffset blocks (block.candidate sizes) := by
    cases nextOffset_eq blocks (block.candidate sizes) with
    | inl max => exact max ▸ free.1
    | inr found =>
      obtain ⟨other, otherMember, starts, same⟩ := found
      rw [← same]
      have own := placed.nonempty block member
      cases free.2 other otherMember with
      | inl before => exact before
      | inr after =>
        have filteredOther : other ∈ blocks.toFinset.filter (·.offset ≤ start) :=
          Finset.mem_filter.mpr ⟨List.mem_toFinset.mpr otherMember, by omega⟩
        have order := last other filteredOther
        omega
  omega

end

theorem Free.mono (free : Free blocks start len) (le : size ≤ len) :
    Free blocks start size := by
  refine ⟨Nat.le_trans (Nat.add_le_add_left le start) free.1, ?_⟩
  intro block member
  cases free.2 block member with
  | inl before => exact Or.inl (Nat.le_trans (Nat.add_le_add_left le start) before)
  | inr after => exact Or.inr after

theorem Placed.findRamOffset_free (placed : Placed sizes blocks) (fits : size < 2 ^ 64)
    (found : findRamOffset sizes blocks size = .ok offset) :
    Free blocks offset size ∧ sizes.granule ∣ offset := by
  rcases placed.findRamOffset_ok found with ⟨rfl, rfl⟩ | ⟨len, gap, enough, -⟩
  · refine ⟨⟨?_, fun _ member => absurd member List.not_mem_nil⟩, Nat.dvd_zero _⟩
    unfold ramAddrMax
    omega
  · obtain ⟨block, -, same⟩ := gap.behind
    exact ⟨gap.free.mono enough, same ▸ dvd_roundUp _ _⟩

end Search

end QemuGzvm.Physmem
