import QemuGzvm.Physmem.RamBlocks

/-!
Contract: runs over the list of RAM blocks (`system/physmem.c`).

Owns:
- the insertion into the sorted list, and the growth of the dirty bitmaps;
- the invariant of the list, which allocations, frees and reclaims keep;
- what holds of the blocks, of the bitmaps and of the search for an offset in every state
  reached.
-/

namespace QemuGzvm.Physmem

open QemuGzvm.Library

variable (sizes : PageSizes)

/-! ### Insertion -/

section Insert

variable {sizes} {blocks : List RAMBlock} {newBlock : RAMBlock}

theorem insertBlock_perm (newBlock : RAMBlock) (blocks : List RAMBlock) :
    (insertBlock newBlock blocks).Perm (newBlock :: blocks) := by
  induction blocks with
  | nil => exact List.Perm.refl _
  | cons block rest ih =>
    rw [insertBlock]
    split
    · exact List.Perm.refl _
    · exact (ih.cons block).trans (List.Perm.swap newBlock block rest)

theorem forall_mem_insertBlock {property : RAMBlock → Prop} :
    (∀ block ∈ insertBlock newBlock blocks, property block) ↔
      property newBlock ∧ ∀ block ∈ blocks, property block := by
  simp [(insertBlock_perm newBlock blocks).mem_iff]

theorem insertBlock_sorted
    (sorted : blocks.Pairwise fun a b => b.maxLength ≤ a.maxLength) :
    (insertBlock newBlock blocks).Pairwise fun a b => b.maxLength ≤ a.maxLength := by
  induction blocks with
  | nil => exact List.pairwise_singleton _ _
  | cons block rest ih =>
    obtain ⟨head, tail⟩ := List.pairwise_cons.mp sorted
    rw [insertBlock]
    split
    · next smaller =>
      refine List.pairwise_cons.mpr ⟨List.forall_mem_cons.mpr ?_, sorted⟩
      have below := Nat.le_of_lt smaller
      exact ⟨below, fun other member => Nat.le_trans (head other member) below⟩
    · next notSmaller =>
      refine List.pairwise_cons.mpr ⟨?_, ih tail⟩
      exact forall_mem_insertBlock.mpr ⟨Nat.le_of_not_lt notSmaller, head⟩

theorem Placed.insertBlock (placed : Placed sizes blocks) (some : 0 < newBlock.maxLength)
    (free : Free blocks newBlock.offset newBlock.maxLength)
    (aligned : sizes.granule ∣ newBlock.offset) :
    Placed sizes (Physmem.insertBlock newBlock blocks) where
  inside := forall_mem_insertBlock.mpr ⟨free.1, placed.inside⟩
  nonempty := forall_mem_insertBlock.mpr ⟨some, placed.nonempty⟩
  aligned := forall_mem_insertBlock.mpr ⟨aligned, placed.aligned⟩
  apart := by
    have symmetric : ∀ {a b : RAMBlock}, RAMBlock.Apart a b → RAMBlock.Apart b a := Or.symm
    rw [(insertBlock_perm newBlock blocks).pairwise_iff symmetric]
    exact List.pairwise_cons.mpr ⟨free.2, placed.apart⟩

end Insert

/-! ### The dirty bitmaps -/

section Dirty

variable {sizes} {s t : RAMList}

/-- The number of bitmap blocks is not cut off at 32 bit. -/
theorem le_newNumBlocks {pages : Nat} (fits : pages < 2 ^ 52) :
    pages ≤ newNumBlocks pages * dirtyMemoryBlockSize := by
  unfold newNumBlocks dirtyMemoryBlockSize
  omega

/-- The arrays have room for as many pages as asked for. -/
theorem dirtyMemoryExtend_spec {pages : Nat}
    (arrays : ∀ client, (s.dirtyMemory client).length = s.numDirtyBlocks)
    (fits : pages < 2 ^ 52) :
    ∃ t, dirtyMemoryExtend s pages = .ok t ∧ t.blocks = s.blocks ∧
      (∀ client, (t.dirtyMemory client).length = t.numDirtyBlocks) ∧
      s.numDirtyBlocks ≤ t.numDirtyBlocks ∧
      pages ≤ t.numDirtyBlocks * dirtyMemoryBlockSize := by
  have enough := le_newNumBlocks fits
  unfold dirtyMemoryExtend
  by_cases reached : newNumBlocks pages ≤ s.numDirtyBlocks
  · rw [if_pos reached]
    exact ⟨s, rfl, rfl, arrays, Nat.le_refl _,
      Nat.le_trans enough (Nat.mul_le_mul_right _ reached)⟩
  · rw [if_neg reached, if_pos fun client => Nat.le_of_eq (arrays client).symm]
    have grows := Nat.le_of_not_le reached
    refine ⟨_, rfl, rfl, fun client => ?_, grows, enough⟩
    have copied : ((s.dirtyMemory client).take s.numDirtyBlocks).length = s.numDirtyBlocks := by
      rw [List.length_take, arrays client, Nat.min_self]
    simp only [List.length_append, List.length_replicate, copied]
    exact Nat.add_sub_cancel' grows

theorem setDirtyPages_ok {stop count : Nat} (enough : stop ≤ count * dirtyMemoryBlockSize) :
    ∀ fuel page idx offset base (dirty : DirtyClient → List DirtyBitmap),
      (∀ client, (dirty client).length = count) → stop - page < fuel →
      (page < stop → base = idx * dirtyMemoryBlockSize ∧ page = base + offset ∧
        offset < dirtyMemoryBlockSize) →
      ∃ after, setDirtyPages stop fuel page idx offset base dirty = .ok after ∧
        ∀ client, (after client).length = count := by
  intro fuel
  induction fuel with
  | zero =>
    intro page idx offset base dirty lengths finishes
    exact absurd finishes (Nat.not_lt_zero _)
  | succ fuel ih =>
    intro page idx offset base dirty lengths finishes place
    rw [setDirtyPages]
    by_cases more : page < stop
    · obtain ⟨baseEq, pageEq, offsetLt⟩ := place more
      have idxLt : idx < count := by
        by_contra outside
        have := Nat.mul_le_mul_right dirtyMemoryBlockSize (Nat.le_of_not_lt outside)
        omega
      have inside : (∀ client, idx < (dirty client).length) ∧
          offset + (min stop (base + dirtyMemoryBlockSize) - page) ≤ dirtyMemoryBlockSize :=
        ⟨fun client => lengths client ▸ idxLt, by omega⟩
      rw [if_pos more]
      dsimp only [bitmapSetAtomic]
      rw [if_pos inside, bind_ok]
      apply ih
      · intro client
        rw [List.length_modify, lengths client]
      · omega
      · intro again
        refine ⟨by rw [baseEq, Nat.add_mul, Nat.one_mul], ?_, by decide⟩
        omega
    · rw [if_neg more]
      exact ⟨dirty, rfl, lengths⟩

theorem cpuPhysicalMemorySetDirtyRange_ok (sizes : PageSizes) (s : RAMList) {start length : Nat}
    (arrays : ∀ client, (s.dirtyMemory client).length = s.numDirtyBlocks)
    (inside : start + length ≤ ramAddrMax) (paged : sizes.targetPageSize ∣ start + length)
    (covered : (start + length) / sizes.targetPageSize ≤ s.numDirtyBlocks * dirtyMemoryBlockSize) :
    ∃ t, cpuPhysicalMemorySetDirtyRange sizes s start length = .ok t ∧ t.blocks = s.blocks ∧
      t.numDirtyBlocks = s.numDirtyBlocks ∧
      ∀ client, (t.dirtyMemory client).length = t.numDirtyBlocks := by
  have fits : start + length < 2 ^ 64 := Nat.lt_of_le_pred (by decide) inside
  have positive : 0 < sizes.targetPageSize := PageSizes.targetPageSize_pos
  have pageDvd : sizes.targetPageSize ∣ 2 ^ 64 :=
    Nat.dvd_trans PageSizes.targetPageSize_dvd_granule PageSizes.granule_dvd
  have room : sizes.targetPageSize ≤ 2 ^ 64 - (start + length) :=
    Nat.le_of_dvd (by omega) (Nat.dvd_sub pageDvd paged)
  have stop : roundUp ((start + length) % 2 ^ 64) sizes.targetPageSize = start + length := by
    rw [Nat.mod_eq_of_lt fits]
    exact roundUp_of_dvd positive paged (by omega)
  dsimp only [cpuPhysicalMemorySetDirtyRange]
  rw [stop]
  generalize pageEq : start / sizes.targetPageSize = page
  obtain ⟨dirty, ran, lengths⟩ := setDirtyPages_ok covered
    ((start + length) / sizes.targetPageSize - page + 1) page (page / dirtyMemoryBlockSize)
    (page % dirtyMemoryBlockSize) (page - page % dirtyMemoryBlockSize) s.dirtyMemory arrays
    (Nat.lt_succ_self _) (by
      intro _
      unfold dirtyMemoryBlockSize
      omega)
  rw [ran]
  exact ⟨_, rfl, rfl, rfl, lengths⟩

end Dirty

/-! ### Runs -/

structure RamInv (s : RAMList) : Prop where
  placed : Placed sizes s.blocks
  sorted : s.blocks.Pairwise fun a b => b.maxLength ≤ a.maxLength
  paged : ∀ block ∈ s.blocks, sizes.targetPageSize ∣ block.maxLength
  arrays : ∀ client, (s.dirtyMemory client).length = s.numDirtyBlocks
  covered : ∀ block ∈ s.blocks, (block.offset + block.maxLength) / sizes.targetPageSize ≤
    s.numDirtyBlocks * dirtyMemoryBlockSize

section Runs

variable {sizes} {s t : RAMList}

theorem ramInv_empty : RamInv sizes RAMList.empty where
  placed := by
    refine ⟨?_, ?_, ?_, List.Pairwise.nil⟩ <;>
      exact fun _ member => absurd member List.not_mem_nil
  sorted := List.Pairwise.nil
  paged := fun _ member => absurd member List.not_mem_nil
  arrays := fun _ => rfl
  covered := fun _ member => absurd member List.not_mem_nil

theorem RamInv.lock (inv : RamInv sizes s) : RamInv sizes { s with locked := true } :=
  ⟨inv.placed, inv.sorted, inv.paged, inv.arrays, inv.covered⟩

/-- A block that the search finds a place for is added, unless the host has no memory for it
or it asks for a guest memfd. -/
theorem RamInv.ramBlockAdd (inv : RamInv sizes s) (newBlock : RAMBlock) (anonymous : Option Nat)
    {offset : Nat} (some : newBlock.maxLength ≠ 0) (fits : newBlock.maxLength < 2 ^ 64)
    (paged : sizes.targetPageSize ∣ newBlock.maxLength)
    (usedPaged : sizes.targetPageSize ∣ newBlock.usedLength)
    (used : newBlock.usedLength ≤ newBlock.maxLength)
    (found : findRamOffset sizes s.blocks newBlock.maxLength = .ok offset) :
    ∃ result t, Physmem.ramBlockAdd sizes s newBlock anonymous = .ok (result, t) ∧
      RamInv sizes t := by
  obtain ⟨free, aligned⟩ := inv.placed.findRamOffset_free fits found
  have inside : offset + newBlock.maxLength < 2 ^ 64 := Nat.lt_of_le_pred (by decide) free.1
  have pages : (offset + newBlock.maxLength) / sizes.targetPageSize < 2 ^ 52 := by
    have page := sizes.le_targetPageSize
    apply Nat.div_lt_of_lt_mul
    omega
  rw [Physmem.ramBlockAdd, found, bind_ok]
  split
  · exact ⟨none, s, rfl, inv⟩
  · next host _ =>
    split
    · exact ⟨none, _, rfl, inv.lock⟩
    · dsimp only
      rw [Nat.mod_eq_of_lt inside]
      obtain ⟨extended, ran, sameBlocks, arrays, grows, enough⟩ :=
        dirtyMemoryExtend_spec inv.arrays pages
      rw [ran, bind_ok, sameBlocks]
      have offsetPaged : sizes.targetPageSize ∣ offset :=
        Nat.dvd_trans PageSizes.targetPageSize_dvd_granule aligned
      have usedPages : (offset + newBlock.usedLength) / sizes.targetPageSize ≤
          extended.numDirtyBlocks * dirtyMemoryBlockSize :=
        Nat.le_trans (Nat.div_le_div_right (Nat.add_le_add_left used offset)) enough
      obtain ⟨marked, ranMark, markedBlocks, markedCount, markedArrays⟩ :=
        cpuPhysicalMemorySetDirtyRange_ok sizes
          { extended with blocks := insertBlock _ s.blocks } arrays
          (Nat.le_trans (Nat.add_le_add_left used offset) free.1)
          (Nat.dvd_add offsetPaged usedPaged) usedPages
      rw [ranMark]
      refine ⟨_, marked, rfl, ?_, ?_, ?_, markedArrays, ?_⟩
      · rw [markedBlocks]
        exact inv.placed.insertBlock (Nat.pos_of_ne_zero some) free aligned
      · rw [markedBlocks]
        exact insertBlock_sorted inv.sorted
      · rw [markedBlocks]
        exact forall_mem_insertBlock.mpr ⟨paged, inv.paged⟩
      · rw [markedBlocks, markedCount]
        refine forall_mem_insertBlock.mpr ⟨enough, fun block member => ?_⟩
        exact Nat.le_trans (inv.covered block member) (Nat.mul_le_mul_right _ grows)

theorem roundUp_align_paged (n : Nat) : sizes.targetPageSize ∣ roundUp n sizes.align :=
  Nat.dvd_trans PageSizes.targetPageSize_dvd_align (dvd_roundUp _ _)

theorem RamInv.qemuRamAllocInternal (inv : RamInv sizes s) {size maxSize : UInt64}
    {host : Option Nat} {flags : RamFlags} {answers : HostAnswers} {result : Option RAMBlock}
    (ran : Physmem.qemuRamAllocInternal sizes s size.toNat maxSize.toNat host flags answers =
      .ok (result, t)) : RamInv sizes t := by
  unfold Physmem.qemuRamAllocInternal at ran
  split at ran
  · cases ran
  next asserted =>
  split at ran
  · cases ran
    exact inv
  have order : size.toNat ≤ maxSize.toNat := by
    simp only [Bool.or_eq_true, decide_eq_true_eq, not_or] at asserted
    exact Nat.le_of_not_lt asserted.2
  have positive : 0 < sizes.align :=
    Nat.lt_of_lt_of_le PageSizes.targetPageSize_pos (Nat.le_max_right _ _)
  cases search : findRamOffset sizes s.blocks (roundUp maxSize.toNat sizes.align) with
  | error fault =>
    rw [Physmem.ramBlockAdd, search] at ran
    cases ran
  | ok offset =>
    have some : roundUp maxSize.toNat sizes.align ≠ 0 := by
      intro zero
      rw [zero] at search
      exact nomatch search
    have used : roundUp size.toNat sizes.align ≤ roundUp maxSize.toNat sizes.align := by
      cases le_roundUp_or_eq_zero positive maxSize.toNat_lt with
      | inl up => exact roundUp_le positive (dvd_roundUp _ _) (Nat.le_trans order up)
      | inr wrapped => exact absurd wrapped some
    obtain ⟨added, after, ranAdd, kept⟩ := inv.ramBlockAdd
      ⟨host, 0, roundUp size.toNat sizes.align, roundUp maxSize.toNat sizes.align,
        flags.guestMemfd⟩ answers.anonymous some (roundUp_lt _ _)
      (roundUp_align_paged _) (roundUp_align_paged _) used search
    rw [ranAdd] at ran
    cases ran
    exact kept

theorem Placed.erase {blocks : List RAMBlock} (placed : Placed sizes blocks) (block : RAMBlock) :
    Placed sizes (blocks.erase block) where
  inside := fun other member => placed.inside other (List.mem_of_mem_erase member)
  nonempty := fun other member => placed.nonempty other (List.mem_of_mem_erase member)
  aligned := fun other member => placed.aligned other (List.mem_of_mem_erase member)
  apart := placed.apart.sublist List.erase_sublist

theorem RamInv.qemuRamFree (inv : RamInv sizes s) (block : Option RAMBlock) :
    RamInv sizes (Physmem.qemuRamFree s block) := by
  cases block with
  | none => exact inv
  | some block =>
    exact ⟨inv.placed.erase block, inv.sorted.sublist List.erase_sublist,
      fun other member => inv.paged other (List.mem_of_mem_erase member), inv.arrays,
      fun other member => inv.covered other (List.mem_of_mem_erase member)⟩

theorem RamInv.next (inv : RamInv sizes s) {op : RamOp} (step : op.next sizes s = some t) :
    RamInv sizes t := by
  cases op with
  | alloc size maxSize host flags answers =>
    rw [RamOp.next] at step
    split at step
    · cases step
    · rw [toOption_eq_some] at step
      cases ran : Physmem.qemuRamAllocInternal sizes s size.toNat maxSize.toNat host flags
          answers with
      | error fault =>
        rw [ran] at step
        cases step
      | ok pair =>
        rw [ran] at step
        cases step
        exact inv.qemuRamAllocInternal ran
  | free block =>
    rw [RamOp.next] at step
    split at step
    · cases step
    · cases step
      exact inv.qemuRamFree block
  | reclaim block =>
    rw [RamOp.next] at step
    split at step
    · cases step
      exact ⟨inv.placed, inv.sorted, inv.paged, inv.arrays, inv.covered⟩
    · cases step

theorem ramInv_of_reached {allowed : RAMList → RamOp → Prop}
    (reached : (ramSystem sizes).ReachedBy allowed s) : RamInv sizes s := by
  refine reached.invariant (RamInv sizes) ?_ ?_
  · intro start initial
    cases initial
    exact ramInv_empty
  · intro before op after inv _ step
    exact inv.next step

end Runs

def RAMBlock.lastPage (block : RAMBlock) : Nat :=
  (block.offset + block.maxLength - 1) / sizes.targetPageSize

def DirtyCovers (s : RAMList) (page : Nat) : Prop :=
  ∀ client, page / dirtyMemoryBlockSize < (s.dirtyMemory client).length

theorem RamInv.lastPage_covered {sizes : PageSizes} {s : RAMList} (inv : RamInv sizes s)
    {block : RAMBlock} (member : block ∈ s.blocks) :
    DirtyCovers s (block.lastPage sizes) := by
  intro client
  have positive : 0 < sizes.targetPageSize := PageSizes.targetPageSize_pos
  have some := inv.placed.nonempty block member
  have whole : sizes.targetPageSize ∣ block.offset + block.maxLength :=
    Nat.dvd_add (Nat.dvd_trans PageSizes.targetPageSize_dvd_granule
      (inv.placed.aligned block member)) (inv.paged block member)
  have before : block.lastPage sizes < (block.offset + block.maxLength) / sizes.targetPageSize := by
    rw [RAMBlock.lastPage, Nat.div_lt_iff_lt_mul positive, Nat.div_mul_cancel whole]
    omega
  rw [inv.arrays client, Nat.div_lt_iff_lt_mul (by decide)]
  exact Nat.lt_of_lt_of_le before (inv.covered block member)

/-- In every state that allocations, frees and reclaims reach, the blocks are apart, aligned,
sorted by size and covered by the dirty bitmaps; the search for an offset returns the start of
a smallest gap that fits, and fails only if no gap does, so that above the first block there is
no free place for the new one. -/
theorem ramBlocks_apart_and_best_fit {s : RAMList}
    (reached : (ramSystem sizes).ReachedBy (fun _ _ => True) s) :
    s.blocks.Pairwise RAMBlock.Apart ∧
    (∀ block ∈ s.blocks, 64 * sizes.targetPageSize ∣ block.offset) ∧
    (s.blocks.Pairwise fun a b => b.maxLength ≤ a.maxLength) ∧
    (∀ block ∈ s.blocks, DirtyCovers s (block.lastPage sizes)) ∧
    ∀ size, size ≠ 0 → size < 2 ^ 64 →
      (∀ offset, findRamOffset sizes s.blocks size = .ok offset →
        Free s.blocks offset size ∧
        (s.blocks = [] ∨ ∃ len, IsGap sizes s.blocks offset len ∧ size ≤ len ∧
          ∀ start other, IsGap sizes s.blocks start other → size ≤ other → len ≤ other)) ∧
      ∀ fault, findRamOffset sizes s.blocks size = .error fault →
        s.blocks ≠ [] ∧ (∀ start len, IsGap sizes s.blocks start len → len < size) ∧
        ∀ start, sizes.granule ∣ start → (∃ block ∈ s.blocks, block.offset ≤ start) →
          ¬ Free s.blocks start size := by
  have inv := ramInv_of_reached reached
  refine ⟨inv.placed.apart, inv.placed.aligned, inv.sorted,
    fun block member => inv.lastPage_covered member, ?_⟩
  intro size some fits
  constructor
  · intro offset found
    refine ⟨(inv.placed.findRamOffset_free fits found).1, ?_⟩
    exact (inv.placed.findRamOffset_ok found).imp And.left id
  · intro fault failed
    have small := inv.placed.findRamOffset_error some failed
    refine ⟨?_, small, ?_⟩
    · intro empty
      rw [empty, findRamOffset, if_neg some] at failed
      cases failed
    · intro start aligned above free
      obtain ⟨candidate, len, gap, enough⟩ := inv.placed.gap_of_free free some aligned above
      exact absurd (small candidate len gap) (Nat.not_lt_of_le enough)

def smallPages : PageSizes := ⟨12, 12, by decide, by decide, by decide⟩

/-- Three blocks, of which the second is freed: its hole takes the next block. -/
theorem ramBlocks_apart_and_best_fit_hole :
    ∃ s, (ramSystem smallPages).ReachedBy (fun _ _ => True) s ∧
      s.blocks.map RAMBlock.offset = [0x80000, 0, 0x40000] ∧
      s.blocks.Pairwise RAMBlock.Apart := by
  obtain ⟨s, reached, offsets⟩ : ∃ s, (ramSystem smallPages).ReachedBy (fun _ _ => True) s ∧
      s.blocks.map RAMBlock.offset = [0x80000, 0, 0x40000] :=
    LabelledSystem.exists_reachedBy
      [.alloc 0x2000 0x2000 none ⟨false, false, false, false⟩ ⟨false, false, some 1⟩,
       .alloc 0x1000 0x1000 none ⟨false, false, false, false⟩ ⟨false, false, some 2⟩,
       .alloc 0x3000 0x3000 none ⟨false, false, false, false⟩ ⟨false, false, some 3⟩,
       .free (some ⟨some 2, 0x40000, 0x1000, 0x1000, false⟩),
       .alloc 0x800 0x1000 none ⟨false, false, false, false⟩ ⟨false, false, some 4⟩]
      (by decide +kernel)
  exact ⟨s, reached, offsets, (ramBlocks_apart_and_best_fit smallPages reached).1⟩

end QemuGzvm.Physmem
