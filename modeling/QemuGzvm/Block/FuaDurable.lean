import QemuGzvm.Block.FuaWrites

/-!
Contract: what a write with `BDRV_REQ_FUA` leaves on the media when it returns 0.

Owns:
- the parts of a request by number, from its offset and length;
- a node with children: nothing below is left unflushed;
- a medium: the flush of a part compares the generations of before the part, so that the data of a
  request with one part is flushed exactly if they were different.
-/

namespace QemuGzvm.Block

variable {graph : BlockGraph} {drivers : BlockDrivers} {most : Nat → Nat} {bs : Nat}
  {below : Fin bs → NodeOp → BlockWorld → Int × BlockWorld} {world : BlockWorld}

/-! ### The parts of a request -/

/-- The request reaches the driver as one call of `bdrv_aligned_pwritev`. -/
def onePart (align : Nat) (request : WriteRequest) : Bool :=
  if request.flags.zeroWrite then
    decide (request.bytes ≠ 0) &&
      (bdrvInitPadding align request.offset request.bytes).all BdrvRequestPadding.mergeReads
  else decide (request.bytes ≠ 0 ∨ request.offset % align = 0)

variable {node : BlockNode bs} {request : WriteRequest}

theorem requestParts_length_one :
    (requestParts node request).length = 1 ↔
      onePart node.bl.requestAlignment request = true := by
  have low := node.bl.aligned
  unfold requestParts onePart
  by_cases empty : request.bytes = 0
  · by_cases aligned : request.offset % node.bl.requestAlignment = 0
    · rw [if_neg (fun both => both.2 aligned)]
      have rest : zeroRest node.bl.requestAlignment request.offset 0 = [] := by
        simp [zeroRest, Nat.not_le.mpr low]
      split
      · rw [zeroParts, empty, bdrvInitPadding_empty aligned, rest]
        simp
      · simp [aligned]
    · grind
  · rw [if_neg (fun both => empty both.1)]
    split
    · rw [zeroParts_length_one low empty]
      simp [empty]
    · simp [empty]

theorem requestParts_pos (several : onePart node.bl.requestAlignment request = false) :
    ∀ part ∈ requestParts node request, 0 < part.bytes := by
  intro part member
  have notOne : (requestParts node request).length ≠ 1 := by
    rw [Ne, requestParts_length_one, several]
    exact Bool.false_ne_true
  unfold requestParts at member notOne
  dsimp only at member notOne
  split at member
  · cases member
  · next accepted =>
    rw [if_neg accepted] at notOne
    split at member
    · exact zeroParts_pos node.bl.aligned part member
    · next data =>
      rw [if_neg data] at notOne
      exact absurd rfl notOne

/-! ### A node with children -/

def Durable (graph : BlockGraph) (world : BlockWorld) : Prop :=
  ∀ medium, IsMedium graph medium → dirty medium world.events = false

variable {flags : BdrvRequestFlags} {after : BlockWorld} {part : AlignedPart}

/-- A part that is through: its body is, and the write finished after it. -/
theorem bdrvAlignedPwritev_zero {isZero : Bool}
    (ran : bdrvAlignedPwritev node drivers below part flags isZero world = (0, after)) :
    0 ≤ (alignedBody node drivers below part flags isZero world).1 ∧
      after = (alignedBody node drivers below part flags isZero world).2.finish bs := by
  obtain ⟨ret, isAfter⟩ := Prod.mk.inj ran
  refine ⟨?_, isAfter.symm⟩
  split at ret
  · assumption
  · omega

variable {isZero : Nat → Bool}

theorem writeParts_cons {rest : List AlignedPart}
    (ran : writeParts node drivers below flags isZero (part :: rest) world = (0, after)) :
    ∃ middle, bdrvAlignedPwritev node drivers below part flags (isZero part.offset) world =
        (0, middle) ∧
      writeParts node drivers below flags isZero rest middle = (0, after) := by
  rw [writeParts] at ran
  split at ran
  · next failed =>
    rw [ran] at failed
    exact absurd failed (Int.lt_irrefl 0)
  · next fine =>
    refine ⟨_, Prod.ext ?_ rfl, ran⟩
    unfold bdrvAlignedPwritev at fine ⊢
    dsimp only at fine ⊢
    split_ifs at fine ⊢ <;> omega

section Part

variable (sound : SoundBelow graph drivers most below) (without : WithoutFua (graph bs))
  (fua : flags.fua = true) (plain : flags.writeCompressed = false)

include sound without fua plain

theorem bdrvAlignedPwritev_clean (inner : ¬IsMedium graph bs)
    (cleans : ∀ child : Fin bs, Cleans graph most child (below child .flush)) {isZero : Bool}
    (ran : bdrvAlignedPwritev (graph bs) drivers below part flags isZero world = (0, after))
    (few : FewIn most after) (tidy : AllTidy graph most world) (clean : CleanUnder graph bs world) :
    CleanUnder graph bs after := by
  obtain ⟨bodyFine, rfl⟩ := bdrvAlignedPwritev_zero ran
  change CleanUnder graph bs (alignedBody (graph bs) drivers below part flags isZero world).2
  have fewBody : FewIn most (alignedBody (graph bs) drivers below part flags isZero world).2 := by
    intro medium
    apply Nat.le_trans _ (few medium)
    rw [finishes_finish]
    exact Nat.le_add_right _ _
  by_cases quiet : Quiet (graph bs) part isZero
  · rw [alignedBody_quiet quiet]
    exact clean
  · obtain ⟨middle, unflushed, -, isFlush⟩ :=
      alignedBody_flushed sound without fua plain quiet bodyFine
    rw [isFlush] at bodyFine fewBody ⊢
    apply bdrvCoFlush_cleans sound cleans without.flushable middle _ fewBody
    · intro medium isMedium
      apply unflushed.during.keeps _ medium isMedium _ (tidy medium isMedium)
      · exact fun other => Nat.le_trans ((bdrvCoFlush_works sound middle).during.finishes
          other) (fewBody other)
      · rintro rfl
        exact inner isMedium
    · exact Int.le_antisymm (bdrvCoFlush_works sound middle).ret_le bodyFine

variable {parts : List AlignedPart}

theorem writeParts_clean (inner : ¬IsMedium graph bs)
    (cleans : ∀ child : Fin bs, Cleans graph most child (below child .flush))
    (ran : writeParts (graph bs) drivers below flags isZero parts world = (0, after))
    (few : FewIn most after) (tidy : AllTidy graph most world) (clean : CleanUnder graph bs world) :
    CleanUnder graph bs after := by
  induction parts generalizing world with
  | nil =>
    cases ran
    exact clean
  | cons part rest ih =>
    obtain ⟨middle, first, ran⟩ := writeParts_cons ran
    have across := bdrvAlignedPwritev_across sound part flags (isZero part.offset) world
    have later := (writeParts_across sound flags isZero rest middle).2
    rw [first] at across
    rw [ran] at later
    have fewPart : FewIn most middle :=
      fun medium => Nat.le_trans (later.finishes medium) (few medium)
    apply ih ran
    · exact fun medium isMedium => across.keeps fewPart medium isMedium (tidy medium isMedium)
    · exact bdrvAlignedPwritev_clean sound without fua plain inner cleans first fewPart tidy clean

/-! ### A medium -/

/-- The flush in a part sees the generations of before it; after it they are different. -/
theorem bdrvAlignedPwritev_medium (isMedium : IsMedium graph bs)
    {isZero : Bool} (loud : ¬Quiet (graph bs) part isZero)
    (ran : bdrvAlignedPwritev (graph bs) drivers below part flags isZero world = (0, after)) :
    dirty bs after.events = decide (world.flushedGen bs = world.writeGen bs) ∧
      after.flushedGen bs ≠ after.writeGen bs := by
  obtain ⟨bodyFine, rfl⟩ := bdrvAlignedPwritev_zero ran
  obtain ⟨middle, unflushed, written, isFlush⟩ :=
    alignedBody_flushed sound without fua plain loud bodyFine
  have gen := (unflushed.during.own isMedium).2.1
  have stored := unflushed.stored isMedium
  have isDirty := written isMedium
  have ahead : ∀ gen : UInt32, gen ≠ gen + 1 := by
    grind
  rw [isFlush] at bodyFine ⊢
  rw [← gen, ← stored]
  rcases bdrvCoFlush_medium sound.along isMedium without.flushable middle with
    ⟨ret, failed, isEnd⟩ | ⟨same, isEnd⟩ | ⟨different, ⟨ret, failed, isEnd⟩ | isEnd⟩
  · rw [isEnd] at bodyFine
    exact absurd bodyFine (Int.not_le.mpr failed)
  · rw [isEnd]
    constructor
    · rw [decide_eq_true same]
      exact isDirty
    · simp [BlockWorld.finish, BlockWorld.storeGen, ahead]
  · rw [isEnd] at bodyFine
    exact absurd bodyFine (Int.not_le.mpr failed)
  · rw [isEnd]
    constructor
    · rw [decide_eq_false different]
      exact if_pos rfl
    · simp [BlockWorld.finish, BlockWorld.storeGen, BlockWorld.record, ahead]

/-- Once the generations are different, every part is flushed. -/
theorem writeParts_shown (isMedium : IsMedium graph bs)
    (loud : ∀ part ∈ parts, ¬Quiet (graph bs) part (isZero part.offset)) (nonempty : parts ≠ [])
    (shown : world.flushedGen bs ≠ world.writeGen bs)
    (ran : writeParts (graph bs) drivers below flags isZero parts world = (0, after)) :
    dirty bs after.events = false := by
  induction parts generalizing world with
  | nil => exact absurd rfl nonempty
  | cons part rest ih =>
    obtain ⟨middle, first, ran⟩ := writeParts_cons ran
    obtain ⟨isDirty, ahead⟩ := bdrvAlignedPwritev_medium sound without fua plain
      isMedium (loud part List.mem_cons_self) first
    rw [decide_eq_false shown] at isDirty
    by_cases last : rest = []
    · subst last
      cases ran
      exact isDirty
    · exact ih (fun part member => loud part (List.mem_cons_of_mem _ member)) last ahead ran

/-- The first of several parts makes them different. -/
theorem writeParts_several (isMedium : IsMedium graph bs)
    (loud : ∀ part ∈ parts, ¬Quiet (graph bs) part (isZero part.offset))
    (several : 1 < parts.length)
    (ran : writeParts (graph bs) drivers below flags isZero parts world = (0, after)) :
    dirty bs after.events = false := by
  cases parts with
  | nil => cases several
  | cons part rest =>
    have more : rest ≠ [] := by
      rintro rfl
      exact Nat.lt_irrefl 1 several
    obtain ⟨middle, first, ran⟩ := writeParts_cons ran
    have ahead := (bdrvAlignedPwritev_medium sound without fua plain isMedium
      (loud part List.mem_cons_self) first).2
    exact writeParts_shown sound without fua plain isMedium
      (fun part member => loud part (List.mem_cons_of_mem _ member)) more ahead ran

end Part

/-! ### Whole requests -/

/-- The flush that stands for the flag finds something to do: at a node with children always; at
a medium if there are writes that have not been flushed already, if a first part of the request
is one, or if nothing is written. -/
def FuaShown (node : BlockNode bs) (request : WriteRequest) (world : BlockWorld) : Prop :=
  node.children ≠ [] ∨ world.flushedGen bs ≠ world.writeGen bs ∨
    onePart node.bl.requestAlignment request = false ∨
    (request.bytes = 0 ∧ node.detectZeroes = true ∧ node.bdrvCoPwriteZeroes = true ∧
      request.isZero request.offset = true)

theorem onePart_eq (one : onePart node.bl.requestAlignment request = true) :
    ∃ part, requestParts node request = [part] ∧
      (Quiet node part (request.isZero part.offset) ↔
        request.bytes = 0 ∧ node.detectZeroes = true ∧ node.bdrvCoPwriteZeroes = true ∧
          request.isZero request.offset = true) := by
  obtain ⟨part, isPart⟩ := List.length_eq_one_iff.mp (requestParts_length_one.mpr one)
  refine ⟨part, isPart, ?_⟩
  have low := node.bl.aligned
  have member : part ∈ requestParts node request := by
    rw [isPart]
    exact List.mem_singleton_self part
  unfold requestParts at member
  dsimp only at member
  split at member
  · cases member
  · next accepted =>
    split at member
    · next zeroWrite =>
      have loud := zeroParts_pos low part member
      apply iff_of_false
      · exact fun quiet => Nat.ne_of_gt loud quiet.2
      · intro empty
        simp [onePart, zeroWrite, empty.1] at one
    · obtain rfl := List.mem_singleton.mp member
      by_cases empty : request.bytes = 0
      · have aligned : request.offset % node.bl.requestAlignment = 0 := by
          by_contra unaligned
          exact accepted ⟨empty, unaligned⟩
        rw [empty, dataPart, bdrvInitPadding_empty aligned, Quiet, zeroes]
        simp [and_assoc]
      · apply iff_of_false
        · intro quiet
          have more := dataPart_bytes node.bl.requestAlignment request.offset request.bytes
          have none := quiet.2
          omega
        · exact fun quiet => empty quiet.1

theorem bdrvCoPwritevPart_zero
    (ran : bdrvCoPwritevPart node drivers below request world = (0, after)) :
    writeParts node drivers below request.flags request.isZero (requestParts node request) world =
      (0, after) := by
  unfold bdrvCoPwritevPart at ran
  split at ran
  · next isRefused =>
    cases ran
    exact absurd (refused_lt isRefused) (Int.lt_irrefl 0)
  · exact ran

/-- The outcome of a request to a medium, for the medium itself. -/
theorem bdrvCoPwritevPart_medium (sound : SoundBelow graph drivers most below)
    (without : WithoutFua (graph bs)) (fua : request.flags.fua = true)
    (plain : request.flags.writeCompressed = false)
    (ran : bdrvCoPwritevPart (graph bs) drivers below request world = (0, after))
    (isMedium : IsMedium graph bs) (fresh : world.events = []) :
    dirty bs after.events = false ↔ FuaShown (graph bs) request world := by
  have parts := bdrvCoPwritevPart_zero ran
  cases one : onePart (graph bs).bl.requestAlignment request with
  | true =>
    obtain ⟨part, isPart, quiet⟩ := onePart_eq one
    rw [FuaShown, ← quiet, one, isMedium]
    rw [isPart] at parts
    obtain ⟨middle, first, last⟩ := writeParts_cons parts
    cases last
    by_cases isQuiet : Quiet (graph bs) part (request.isZero part.offset)
    · apply iff_of_true _ (Or.inr (Or.inr (Or.inr isQuiet)))
      rw [(bdrvAlignedPwritev_zero first).2]
      change dirty bs (alignedBody (graph bs) drivers below part _ _ world).2.events = false
      rw [alignedBody_quiet isQuiet, fresh, dirty]
    · rw [(bdrvAlignedPwritev_medium sound without fua plain isMedium isQuiet first).1]
      simp [isQuiet]
  | false =>
    apply iff_of_true _ (Or.inr (Or.inr (Or.inl one)))
    have loud : ∀ part ∈ requestParts (graph bs) request,
        ¬Quiet (graph bs) part (request.isZero part.offset) :=
      fun part member isQuiet => Nat.ne_of_gt (requestParts_pos one part member) isQuiet.2
    by_cases empty : requestParts (graph bs) request = []
    · rw [empty] at parts
      cases parts
      rw [fresh, dirty]
    · have notOne : (requestParts (graph bs) request).length ≠ 1 := by
        rw [Ne, requestParts_length_one, one]
        exact Bool.false_ne_true
      have nonempty := List.length_pos_iff.mpr empty
      exact writeParts_several sound without fua plain isMedium loud (by omega) parts

/-- A write with the flag that returns 0 has flushed every medium that it wrote to, exactly if
the flush that stands for the flag finds something to do. -/
theorem fua_durable_iff (along : Along graph drivers) (flushable : ∀ node, Flushable (graph node))
    (supportedWriteFua : (graph bs).supportedWriteFua = false)
    (supportedZeroFua : (graph bs).supportedZeroFua = false) {request : WriteRequest}
    (fua : request.flags.fua = true) (plain : request.flags.writeCompressed = false)
    {after : BlockWorld} (fresh : world.events = [])
    (ran : blockOp graph drivers bs (.write request) world = (0, after))
    (noWrap : ∀ medium ≠ bs, world.pending medium + after.finishes medium < 2 ^ 32) :
    Durable graph after ↔ FuaShown (graph bs) request world := by
  have children := blockOp_fits along flushable after.finishes
  have without : WithoutFua (graph bs) := ⟨flushable bs, supportedWriteFua, supportedZeroFua⟩
  have whole := (children bs).across (.write request) world
  rw [ran] at whole
  rw [blockOp] at ran
  change bdrvCoPwritevPart (graph bs) drivers _ request world = (0, after) at ran
  have clean : ∀ medium, dirty medium world.events = false := by
    intro medium
    rw [fresh, dirty]
  have outside : ∀ medium, ¬Under graph medium bs → dirty medium after.events = false :=
    fun medium apart => (whole.frame medium apart).trans (clean medium)
  have sound : SoundBelow graph drivers after.finishes
      (fun (child : Fin bs) op world => blockOp graph drivers child op world) :=
    ⟨along, fun child => (children child).across, fun child => (children child).ret_le⟩
  by_cases isMedium : IsMedium graph bs
  · rw [← bdrvCoPwritevPart_medium sound without fua plain ran isMedium fresh]
    constructor
    · exact fun durable => durable bs isMedium
    · intro flushed medium _
      by_cases under : Under graph medium bs
      · rw [under.medium isMedium]
        exact flushed
      · exact outside medium under
  · apply iff_of_true _ (Or.inl isMedium)
    have tidy : AllTidy graph after.finishes world := by
      intro medium onMedium
      have other : medium ≠ bs := by
        rintro rfl
        exact isMedium onMedium
      have room := noWrap medium other
      constructor
      · omega
      · rw [clean medium]
        intro impossible
        cases impossible
    have below := writeParts_clean sound without fua plain isMedium
      (fun child => (children child).cleans) (bdrvCoPwritevPart_zero ran) (fun _ => Nat.le_refl _)
      tidy fun medium _ _ => clean medium
    intro medium onMedium
    by_cases under : Under graph medium bs
    · exact below medium onMedium under
    · exact outside medium under

/-! ### A medium alone -/

def protocolNode (bs : Nat) : BlockNode bs where
  flush := ⟨false, false, false, false, false, true, false⟩
  inserted := true
  supportedWriteFua := false
  supportedZeroFua := false
  supportedZeroNoFallback := false
  bdrvCoPwriteZeroes := false
  canCompress := false
  detectZeroes := false
  bl := ⟨512, 0, 0, 0, by decide, by decide, by decide⟩
  children := []

def plainDrivers : BlockDrivers where
  requests := fun _ _ _ => []
  ret := fun _ _ _ => 0
  ret_le := fun _ _ _ => Int.le_refl 0

def sectorWrite : WriteRequest := ⟨0, 512, ⟨true, false, false, false⟩, fun _ => false⟩

/-- No driver write is on the way, and `gen` writes have finished since the last flush. -/
def idleWorld (gen : UInt32) : BlockWorld := ⟨fun _ => gen, fun _ => 0, []⟩

/-- What the write does: the medium is flushed only if writes were left from before. -/
theorem sectorWrite_runs :
    (∃ after, blockOp protocolNode plainDrivers 0 (.write sectorWrite) (idleWorld 0) = (0, after) ∧
      after.events = [.finished 0, .wrote 0]) ∧
    ∃ after, blockOp protocolNode plainDrivers 0 (.write sectorWrite) (idleWorld 1) = (0, after) ∧
      after.events = [.finished 0, .flushToDisk 0, .wrote 0] := by
  constructor
  · rw [blockOp]
    exact ⟨_, rfl, rfl⟩
  · rw [blockOp]
    exact ⟨_, rfl, rfl⟩

/-- Right after a flush the write is not flushed: the flush in it is skipped, as the generation
is advanced after it only. -/
theorem fua_skipped : ∃ after,
    blockOp protocolNode plainDrivers 0 (.write sectorWrite) (idleWorld 0) = (0, after) ∧
      after.events = [.finished 0, .wrote 0] ∧ ¬Durable protocolNode after := by
  obtain ⟨after, ran, events⟩ := sectorWrite_runs.1
  refine ⟨after, ran, events, ?_⟩
  intro durable
  have flushed := durable 0 rfl
  rw [events] at flushed
  cases flushed

/-- With a finished write that is not flushed yet, it is. -/
theorem fua_durable_iff_pending : ∃ after,
    blockOp protocolNode plainDrivers 0 (.write sectorWrite) (idleWorld 1) = (0, after) ∧
      after.events = [.finished 0, .flushToDisk 0, .wrote 0] ∧ Durable protocolNode after := by
  obtain ⟨after, ran, events⟩ := sectorWrite_runs.2
  refine ⟨after, ran, events, ?_⟩
  have along : Along protocolNode plainDrivers := fun _ _ _ => nofun
  have flushable (bs : Nat) : Flushable (protocolNode bs) := ⟨rfl, rfl, rfl, rfl, rfl, fun _ => rfl⟩
  apply (fua_durable_iff along flushable rfl rfl rfl rfl rfl ran _).mpr
  · exact Or.inr (Or.inl (by decide))
  · intro medium other
    have none : after.finishes medium = 0 := by
      rw [BlockWorld.finishes, events]
      simp [other.symm]
    rw [none]
    change ((1 : UInt32) - 0).toNat + 0 < 2 ^ 32
    decide

end QemuGzvm.Block
