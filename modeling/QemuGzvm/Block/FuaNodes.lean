import QemuGzvm.Block.Fua

/-!
Contract: what a request to a node does to the media below it.

Owns:
- which media have been written to since they were last flushed, and how far their generations
  are apart;
- what each of the functions keeps: `During` for the inside of a write, `Across` for a whole
  request;
- a flush that returns 0 leaves no medium below written to and unflushed.

The generation of a medium is advanced when a write to it finishes. Between the driver write and
that point the medium is written to, but its generations do not show it; requests of parents
never look at it then.
-/

namespace QemuGzvm.Block

variable {graph : BlockGraph} {drivers : BlockDrivers} {most : Nat → Nat}

/-! ### Media -/

def IsMedium (graph : BlockGraph) (bs : Nat) : Prop := (graph bs).children = []

/-- Reached from a node through children that it may write to. -/
inductive Under (graph : BlockGraph) (medium : Nat) : Nat → Prop
  | self : Under graph medium medium
  | child {bs : Nat} {edge : BlockEdge bs} (member : edge ∈ (graph bs).children)
      (writable : edge.writable = true) (under : Under graph medium edge.child) :
      Under graph medium bs

/-- Written to since it was last flushed, or since the list begins. -/
def dirty (bs : Nat) : List BlockEvent → Bool
  | [] => false
  | .wrote other :: rest => if other = bs then true else dirty bs rest
  | .flushToDisk other :: rest => if other = bs then false else dirty bs rest
  | .finished _ :: rest => dirty bs rest

/-- The writes that have finished since the stored generation, up to 2^32. -/
def BlockWorld.pending (world : BlockWorld) (bs : Nat) : Nat :=
  (world.writeGen bs - world.flushedGen bs).toNat

def BlockWorld.finishes (world : BlockWorld) (bs : Nat) : Nat :=
  world.events.count (.finished bs)

/-- The generations of a medium show that it is written to, and do not wrap as long as there
are no more writes than `most`. -/
structure Tidy (most : Nat → Nat) (world : BlockWorld) (bs : Nat) : Prop where
  room : world.pending bs + most bs < 2 ^ 32 + world.finishes bs
  shows : dirty bs world.events = true → world.pending bs ≠ 0

/-! ### What is kept -/

structure During (graph : BlockGraph) (most : Nat → Nat) (bs : Nat) (before after : BlockWorld) :
    Prop where
  finishes : ∀ medium, before.finishes medium ≤ after.finishes medium
  keeps : (∀ medium, after.finishes medium ≤ most medium) →
    ∀ medium, IsMedium graph medium → medium ≠ bs → Tidy most before medium →
      Tidy most after medium
  own : IsMedium graph bs → after.finishes bs = before.finishes bs ∧
    after.writeGen bs = before.writeGen bs ∧
    (after.flushedGen bs = before.flushedGen bs ∨ after.flushedGen bs = after.writeGen bs)
  frame : ∀ medium, ¬Under graph medium bs → dirty medium after.events = dirty medium before.events

structure Across (graph : BlockGraph) (most : Nat → Nat) (bs : Nat) (before after : BlockWorld) :
    Prop where
  finishes : ∀ medium, before.finishes medium ≤ after.finishes medium
  keeps : (∀ medium, after.finishes medium ≤ most medium) →
    ∀ medium, IsMedium graph medium → Tidy most before medium → Tidy most after medium
  frame : ∀ medium, ¬Under graph medium bs → dirty medium after.events = dirty medium before.events

variable {bs : Nat} {before middle after : BlockWorld}

theorem During.refl (world : BlockWorld) : During graph most bs world world where
  finishes := fun _ => Nat.le_refl _
  keeps := fun _ _ _ _ tidy => tidy
  own := fun _ => ⟨rfl, rfl, Or.inl rfl⟩
  frame := fun _ _ => rfl

theorem During.trans (first : During graph most bs before middle)
    (second : During graph most bs middle after) : During graph most bs before after where
  finishes := fun medium => Nat.le_trans (first.finishes medium) (second.finishes medium)
  keeps := by
    intro few medium isMedium other tidy
    apply second.keeps few medium isMedium other
    apply first.keeps _ medium isMedium other tidy
    exact fun medium => Nat.le_trans (second.finishes medium) (few medium)
  own := by
    intro isMedium
    obtain ⟨count, gen, flushed⟩ := first.own isMedium
    obtain ⟨count', gen', flushed'⟩ := second.own isMedium
    refine ⟨count'.trans count, gen'.trans gen, ?_⟩
    rcases flushed' with same | stored
    · rw [same, gen']
      exact flushed
    · exact Or.inr stored
  frame := fun medium outside => (second.frame medium outside).trans (first.frame medium outside)

theorem Across.refl (world : BlockWorld) : Across graph most bs world world where
  finishes := fun _ => Nat.le_refl _
  keeps := fun _ _ _ tidy => tidy
  frame := fun _ _ => rfl

theorem Across.trans (first : Across graph most bs before middle)
    (second : Across graph most bs middle after) : Across graph most bs before after where
  finishes := fun medium => Nat.le_trans (first.finishes medium) (second.finishes medium)
  keeps := by
    intro few medium isMedium tidy
    apply second.keeps few medium isMedium
    apply first.keeps _ medium isMedium tidy
    exact fun medium => Nat.le_trans (second.finishes medium) (few medium)
  frame := fun medium outside => (second.frame medium outside).trans (first.frame medium outside)

theorem Across.during {edge : BlockEdge bs} (member : edge ∈ (graph bs).children)
    (writable : edge.writable = true) (across : Across graph most edge.child before after) :
    During graph most bs before after where
  finishes := across.finishes
  keeps := fun few medium isMedium _ => across.keeps few medium isMedium
  own := by
    intro isMedium
    rw [isMedium] at member
    cases member
  frame := fun medium outside =>
    across.frame medium fun under => outside (.child member writable under)

theorem Tidy.congr {world other : BlockWorld} {medium : Nat} (tidy : Tidy most world medium)
    (gens : other.pending medium = world.pending medium)
    (finishes : other.finishes medium = world.finishes medium)
    (same : dirty medium other.events = dirty medium world.events) : Tidy most other medium := by
  grind [Tidy]

theorem During.record (world : BlockWorld) {event : BlockEvent}
    (isEvent : event = .wrote bs ∨ event = .flushToDisk bs) :
    During graph most bs world (world.record event) := by
  have count : ∀ medium, (world.record event).finishes medium = world.finishes medium := by
    intro medium
    apply List.count_cons_of_ne
    rcases isEvent with rfl | rfl <;> exact nofun
  have others : ∀ medium, medium ≠ bs →
      dirty medium (world.record event).events = dirty medium world.events := by
    intro medium other
    rcases isEvent with rfl | rfl
    · exact if_neg other.symm
    · exact if_neg other.symm
  constructor
  · exact fun medium => Nat.le_of_eq (count medium).symm
  · intro _ medium _ other tidy
    exact tidy.congr rfl (count medium) (others medium other)
  · exact fun _ => ⟨count bs, rfl, Or.inl rfl⟩
  · intro medium outside
    apply others
    rintro rfl
    exact outside .self

theorem During.storeGen (world : BlockWorld) {gen : UInt32}
    (current : IsMedium graph bs → gen = world.writeGen bs) :
    During graph most bs world (world.storeGen bs gen) where
  finishes := fun _ => Nat.le_refl _
  keeps := by
    intro _ medium _ other tidy
    refine tidy.congr ?_ rfl rfl
    change (world.writeGen medium - Function.update world.flushedGen bs gen medium).toNat = _
    rw [Function.update_of_ne other]
    rfl
  own := by
    intro isMedium
    refine ⟨rfl, rfl, Or.inr ?_⟩
    change Function.update world.flushedGen bs gen bs = world.writeGen bs
    rw [Function.update_self, current isMedium]
  frame := fun _ _ => rfl

/-! ### The end of a write -/

theorem gap_succ {gen stored : UInt32} (room : (gen - stored).toNat + 1 < 2 ^ 32) :
    (gen + 1 - stored).toNat = (gen - stored).toNat + 1 := by
  have moved : gen + 1 - stored = gen - stored + 1 := by
    grind
  rw [moved, UInt32.toNat_add, show (1 : UInt32).toNat = 1 from rfl, Nat.mod_eq_of_lt room]

theorem During.pending_le (during : During graph most bs before after)
    (isMedium : IsMedium graph bs) : after.pending bs ≤ before.pending bs := by
  obtain ⟨-, gen, same | stored⟩ := during.own isMedium
  · apply Nat.le_of_eq
    rw [BlockWorld.pending, BlockWorld.pending, gen, same]
  · rw [BlockWorld.pending, stored, UInt32.sub_self]
    exact Nat.zero_le _

theorem finishes_finish (world : BlockWorld) (bs medium : Nat) :
    (world.finish bs).finishes medium = world.finishes medium + if medium = bs then 1 else 0 := by
  change (BlockEvent.finished bs :: world.events).count (.finished medium) = _
  rw [List.count_cons]
  by_cases same : bs = medium
  · rw [if_pos same.symm, same]
    simp [BlockWorld.finishes]
  · have different : medium ≠ bs := fun eq => same eq.symm
    simp [BlockWorld.finishes, same, different]

/-- `bdrv_co_write_req_finish` makes a write visible in the generations. -/
theorem During.finish (during : During graph most bs before after) :
    Across graph most bs before (after.finish bs) where
  finishes := by
    intro medium
    rw [finishes_finish]
    exact Nat.le_trans (during.finishes medium) (Nat.le_add_right _ _)
  keeps := by
    intro few medium isMedium tidy
    by_cases own : medium = bs
    · subst own
      have count := (during.own isMedium).1
      have less := few medium
      have fewer := during.pending_le isMedium
      have room := tidy.room
      have finishes := finishes_finish after medium medium
      rw [if_pos rfl] at finishes
      have pending : (after.finish medium).pending medium = after.pending medium + 1 := by
        change (Function.update after.writeGen medium _ medium - _).toNat = _
        rw [Function.update_self]
        apply gap_succ
        change after.pending medium + 1 < 2 ^ 32
        omega
      constructor
      · omega
      · omega
    · have tidy' : Tidy most after medium := by
        apply during.keeps _ medium isMedium own tidy
        intro other
        apply Nat.le_trans _ (few other)
        rw [finishes_finish]
        exact Nat.le_add_right _ _
      refine tidy'.congr ?_ ?_ rfl
      · change (Function.update after.writeGen bs _ medium - _).toNat = _
        rw [Function.update_of_ne own]
        rfl
      · rw [finishes_finish, if_neg own, Nat.add_zero]
  frame := fun medium outside => during.frame medium outside

/-! ### Inside a node -/

/-- Drivers make requests along the edges that they may write to. -/
def Along (graph : BlockGraph) (drivers : BlockDrivers) : Prop :=
  ∀ world bs call, ∀ op ∈ drivers.requests world bs call,
    ∃ edge ∈ (graph bs).children, edge.child = op.child ∧ edge.writable = true

def BelowFits (graph : BlockGraph) (most : Nat → Nat)
    (below : Fin bs → NodeOp → BlockWorld → Int × BlockWorld) : Prop :=
  ∀ (child : Fin bs) op world, Across graph most child world (below child op world).2

def BelowLe (below : Fin bs → NodeOp → BlockWorld → Int × BlockWorld) : Prop :=
  ∀ child op world, (below child op world).1 ≤ 0

structure SoundBelow (graph : BlockGraph) (drivers : BlockDrivers) (most : Nat → Nat)
    (below : Fin bs → NodeOp → BlockWorld → Int × BlockWorld) : Prop where
  along : Along graph drivers
  fits : BelowFits graph most below
  ret_le : BelowLe below

/-- Work on a request to `bs` that returns 0 or an error. -/
structure Works (graph : BlockGraph) (most : Nat → Nat) (bs : Nat) (before : BlockWorld)
    (answer : Int × BlockWorld) : Prop where
  ret_le : answer.1 ≤ 0
  during : During graph most bs before answer.2

section Inside

variable {below : Fin bs → NodeOp → BlockWorld → Int × BlockWorld}

theorem Works.zero (during : During graph most bs before after) :
    Works graph most bs before (0, after) :=
  ⟨Int.le_refl 0, during⟩

theorem Works.failed (world : BlockWorld) {ret : Int} (le : ret ≤ 0) :
    Works graph most bs world (ret, world) :=
  ⟨le, .refl world⟩

variable {answer other : Int × BlockWorld}

theorem Works.ite {p : Prop} [Decidable p] (first : Works graph most bs before answer)
    (second : Works graph most bs before other) :
    Works graph most bs before (if p then answer else other) := by
  split <;> assumption

theorem Works.next (first : Works graph most bs before answer)
    (second : Works graph most bs answer.2 other) : Works graph most bs before other :=
  ⟨second.ret_le, first.during.trans second.during⟩

variable (sound : SoundBelow graph drivers most below)
include sound

theorem runChildren_works {ops : List (ChildOp bs)}
    (along : ∀ op ∈ ops, ∃ edge ∈ (graph bs).children,
      edge.child = op.child ∧ edge.writable = true) (world : BlockWorld) :
    Works graph most bs world (runChildren below ops world) := by
  induction ops generalizing world with
  | nil => exact .zero (.refl world)
  | cons op rest ih =>
    obtain ⟨edge, member, isChild, writable⟩ := along op List.mem_cons_self
    have first : Works graph most bs world (below op.child op.op world) := by
      refine ⟨sound.ret_le _ _ _, Across.during member writable ?_⟩
      rw [isChild]
      exact sound.fits op.child op.op world
    rw [runChildren]
    exact .ite first (first.next (ih (fun op member => along op (.tail _ member)) _))

theorem flushChildren_works {edges : List (BlockEdge bs)} (subset : edges ⊆ (graph bs).children)
    {ret : Int} (le : ret ≤ 0) (world : BlockWorld) :
    Works graph most bs world (flushChildren below edges ret world) := by
  induction edges generalizing ret world with
  | nil => exact ⟨le, .refl world⟩
  | cons edge rest ih =>
    obtain ⟨member, others⟩ := List.cons_subset.mp subset
    rw [flushChildren]
    split
    · next writable =>
      have first : Works graph most bs world (below edge.child .flush world) :=
        ⟨sound.ret_le _ _ _, Across.during member writable (sound.fits edge.child .flush world)⟩
      refine first.next (ih others ?_ _)
      split
      · exact sound.ret_le _ _ _
      · exact le
    · exact ih others le world

variable (node : BlockNode bs) (part : AlignedPart) (flags : BdrvRequestFlags)
  (offset bytes num : Nat) (fua needFlush isZero : Bool) (call : DriverCall) (gen : UInt32)
  (world : BlockWorld)

theorem driverCall_works :
    Works graph most bs world (driverCall drivers below call world) := by
  have ran := runChildren_works sound (sound.along world bs call) world
  exact .ite ran ⟨drivers.ret_le _ _ _, ran.during⟩

theorem driverWrite_works :
    Works graph most bs world (driverWrite node drivers below call world) := by
  have called := driverCall_works sound call world
  exact .ite ⟨called.ret_le, called.during.trans (.record _ (Or.inl rfl))⟩ called

theorem flushOs_works :
    Works graph most bs world (flushOs (graph bs) drivers below world) :=
  .ite (driverCall_works sound .flushToOs world) (.zero (.refl world))

theorem flushMedium_works :
    Works graph most bs world (flushMedium (graph bs) drivers below gen world) := by
  have recorded : Works graph most bs world (0, world.record (.flushToDisk bs)) :=
    .zero (.record world (Or.inr rfl))
  exact .ite (.zero (.refl world)) (.ite
    (recorded.next (driverCall_works sound .flushToDisk _)) (.zero (.refl world)))

theorem flushBody_works :
    Works graph most bs world (flushBody (graph bs) drivers below gen world) := by
  have os := flushOs_works sound world
  have medium := os.next (flushMedium_works sound gen _)
  exact .ite (driverCall_works sound .flush world) (.ite os (.ite medium
    (medium.next (flushChildren_works sound (List.Subset.refl _) (Int.le_refl 0) _))))

theorem bdrvCoFlush_works :
    Works graph most bs world (bdrvCoFlush (graph bs) drivers below world) := by
  have body := flushBody_works sound (world.writeGen bs) world
  refine .ite (.zero (.refl world)) (.ite (.zero (body.during.trans (.storeGen _ ?_))) body)
  intro isMedium
  exact (body.during.own isMedium).2.1.symm

theorem bdrvDriverPwritev_works :
    Works graph most bs world
      (bdrvDriverPwritev (graph bs) drivers below offset bytes fua world) := by
  have written := driverWrite_works sound (graph bs)
  exact .ite ((written _ world).next (bdrvCoFlush_works sound _)) (written _ world)

theorem transferLoop_works :
    Works graph most bs world
      (transferLoop (graph bs) drivers below fua offset bytes world) := by
  have piece := bdrvDriverPwritev_works sound
  fun_induction transferLoop (graph bs) drivers below fua offset bytes world with
  | case1 offset bytes world some num localFua answer failed => exact piece _ _ _ _
  | case2 offset bytes world some num localFua answer fine ih =>
    exact (piece _ _ _ _).next ih
  | case3 => exact .zero (.refl _)

theorem driverPwriteZeroes_works :
    Works graph most bs world
      (driverPwriteZeroes (graph bs) drivers below flags offset num world) :=
  .ite (driverWrite_works sound (graph bs) _ world) (.failed world (by decide))

theorem zeroTurn_works :
    Works graph most bs world
      ((zeroTurn (graph bs) drivers below flags offset num needFlush world).ret,
        (zeroTurn (graph bs) drivers below flags offset num needFlush world).world) := by
  have zeroes := driverPwriteZeroes_works sound flags offset num world
  unfold zeroTurn
  dsimp only
  split
  · exact zeroes.next (bdrvDriverPwritev_works sound _ _ _ _)
  · exact zeroes

theorem zeroLoop_works (head tail : Fin (graph bs).bl.zeroAlignment) :
    Works graph most bs world
      ((zeroLoop (graph bs) drivers below flags head tail offset bytes needFlush world).1,
        (zeroLoop (graph bs) drivers below flags head tail offset bytes needFlush world).2.2) := by
  have turn := zeroTurn_works sound flags
  fun_induction zeroLoop (graph bs) drivers below flags head tail offset bytes needFlush world with
  | case1 head offset bytes needFlush world some num result zero ih =>
    exact (turn _ _ _ _).next ih
  | case2 head offset bytes needFlush world some num result failed => exact turn _ _ _ _
  | case3 => exact .zero (.refl _)

theorem bdrvCoDoPwriteZeroes_works :
    Works graph most bs world
      (bdrvCoDoPwriteZeroes (graph bs) drivers below offset bytes flags world) := by
  have loop := zeroLoop_works sound flags
  exact .ite (.failed world (by decide)) (.ite
    ((loop _ _ _ _ _ _).next (bdrvCoFlush_works sound _)) (loop _ _ _ _ _ _))

theorem alignedBody_works :
    Works graph most bs world (alignedBody (graph bs) drivers below part flags isZero world) := by
  have compressed : Works graph most bs world
      (bdrvDriverPwritevCompressed (graph bs) drivers below part.offset part.bytes world) :=
    .ite (driverWrite_works sound (graph bs) _ world) (.failed world (by decide))
  exact .ite (.failed world (by decide)) (.ite
    (bdrvCoDoPwriteZeroes_works sound flags _ _ world) (.ite compressed (.ite
      (bdrvDriverPwritev_works sound _ _ _ world)
      (transferLoop_works sound _ _ _ world))))

theorem bdrvAlignedPwritev_across :
    Across graph most bs world
      (bdrvAlignedPwritev (graph bs) drivers below part flags isZero world).2 :=
  (alignedBody_works sound part flags isZero world).during.finish

theorem writeParts_across (flags : BdrvRequestFlags) (isZero : Nat → Bool)
    (parts : List AlignedPart) (world : BlockWorld) :
    (writeParts (graph bs) drivers below flags isZero parts world).1 ≤ 0 ∧
      Across graph most bs world
        (writeParts (graph bs) drivers below flags isZero parts world).2 := by
  induction parts generalizing world with
  | nil => exact ⟨Int.le_refl 0, .refl world⟩
  | cons part rest ih =>
    have first := bdrvAlignedPwritev_across sound part flags (isZero part.offset) world
    rw [writeParts]
    split
    · next failed => exact ⟨Int.le_of_lt failed, first⟩
    · exact ⟨(ih _).1, first.trans (ih _).2⟩

end Inside

/-! ### Flushes -/

/-- A node whose flushes go through: to the disk where it has no children. -/
structure Flushable (node : BlockNode bs) : Prop where
  inserted : node.inserted = true
  writable : node.flush.readOnly = false
  sg : node.flush.sg = false
  noFlush : node.flush.noFlush = false
  bdrvCoFlush : node.flush.bdrvCoFlush = false
  bdrvCoFlushToDisk : node.children = [] → node.flush.bdrvCoFlushToDisk = true

section Flushes

variable {below : Fin bs → NodeOp → BlockWorld → Int × BlockWorld}

theorem driverCall_medium (along : Along graph drivers) (isMedium : IsMedium graph bs)
    (call : DriverCall) (world : BlockWorld) :
    driverCall drivers below call world = (drivers.ret world bs call, world) := by
  have none : drivers.requests world bs call = [] := by
    apply List.eq_nil_iff_forall_not_mem.mpr
    intro op member
    obtain ⟨edge, isEdge, -⟩ := along world bs call op member
    rw [isMedium] at isEdge
    cases isEdge
  rw [driverCall, none, runChildren]
  exact if_neg (Int.lt_irrefl 0)

theorem bdrvCoFlush_eq (flushable : Flushable (graph bs)) (world : BlockWorld) :
    bdrvCoFlush (graph bs) drivers below world =
      (if (flushBody (graph bs) drivers below (world.writeGen bs) world).1 = 0 then
        (0, (flushBody (graph bs) drivers below (world.writeGen bs) world).2.storeGen bs
          (world.writeGen bs))
      else flushBody (graph bs) drivers below (world.writeGen bs) world) := by
  unfold bdrvCoFlush
  rw [flushable.inserted, flushable.writable, flushable.sg]
  rfl

/-- What a flush of a medium does: it fails before the disk, finds the generations the same, or
calls `bdrv_co_flush_to_disk`. -/
theorem flushBody_medium (along : Along graph drivers) (isMedium : IsMedium graph bs)
    (flushable : Flushable (graph bs)) (gen : UInt32) (world : BlockWorld) :
    (∃ ret < 0, flushBody (graph bs) drivers below gen world = (ret, world)) ∨
    (world.flushedGen bs = gen ∧ flushBody (graph bs) drivers below gen world = (0, world)) ∨
    (world.flushedGen bs ≠ gen ∧ ∃ ret ≤ 0, flushBody (graph bs) drivers below gen world =
        (ret, world.record (.flushToDisk bs))) := by
  have called : ∀ call world, driverCall drivers below call world =
      (drivers.ret world bs call, world) := driverCall_medium along isMedium
  have children : ∀ world, flushChildren below (graph bs).children 0 world = (0, world) := by
    intro world
    rw [isMedium, flushChildren]
  have os : ∃ ret ≤ 0, flushOs (graph bs) drivers below world = (ret, world) := by
    unfold flushOs
    split
    · exact ⟨_, drivers.ret_le _ _ _, called _ _⟩
    · exact ⟨0, Int.le_refl 0, rfl⟩
  obtain ⟨osRet, osLe, isOs⟩ := os
  have medium : flushMedium (graph bs) drivers below gen world =
      if world.flushedGen bs = gen then (0, world)
      else (drivers.ret (world.record (.flushToDisk bs)) bs .flushToDisk,
        world.record (.flushToDisk bs)) := by
    rw [flushMedium, flushable.noFlush, flushable.bdrvCoFlushToDisk isMedium, called]
    simp
  rw [flushBody, flushable.bdrvCoFlush, if_neg Bool.false_ne_true, isOs]
  by_cases failed : osRet < 0
  · rw [if_pos failed]
    exact Or.inl ⟨osRet, failed, rfl⟩
  · grind

theorem bdrvCoFlush_medium (along : Along graph drivers) (isMedium : IsMedium graph bs)
    (flushable : Flushable (graph bs)) (world : BlockWorld) :
    (∃ ret < 0, bdrvCoFlush (graph bs) drivers below world = (ret, world)) ∨
    (world.flushedGen bs = world.writeGen bs ∧ bdrvCoFlush (graph bs) drivers below world =
      (0, world.storeGen bs (world.writeGen bs))) ∨
    (world.flushedGen bs ≠ world.writeGen bs ∧
      ((∃ ret < 0, bdrvCoFlush (graph bs) drivers below world =
        (ret, world.record (.flushToDisk bs))) ∨
      bdrvCoFlush (graph bs) drivers below world =
        (0, (world.record (.flushToDisk bs)).storeGen bs (world.writeGen bs)))) := by
  rw [bdrvCoFlush_eq flushable]
  rcases flushBody_medium along isMedium flushable (world.writeGen bs) world with
    ⟨ret, failed, isBody⟩ | ⟨same, isBody⟩ | ⟨different, ret, le, isBody⟩
  · left
    rw [isBody]
    exact ⟨ret, failed, if_neg (Int.ne_of_lt failed)⟩
  · right
    left
    rw [isBody]
    exact ⟨same, if_pos rfl⟩
  · grind

theorem pending_eq_zero_iff {world : BlockWorld} {medium : Nat} :
    world.pending medium = 0 ↔ world.flushedGen medium = world.writeGen medium := by
  rw [BlockWorld.pending, ← UInt32.toNat_zero, UInt32.toNat_inj]
  constructor
  · grind
  · intro same
    rw [same, UInt32.sub_self]

theorem bdrvCoFlush_across (sound : SoundBelow graph drivers most below)
    (flushable : Flushable (graph bs)) (world : BlockWorld) :
    Across graph most bs world (bdrvCoFlush (graph bs) drivers below world).2 := by
  have during := (bdrvCoFlush_works sound world).during
  refine ⟨during.finishes, ?_, during.frame⟩
  intro few medium isMedium tidy
  by_cases own : medium = bs
  · subst own
    obtain ⟨count, -, -⟩ := during.own isMedium
    have fewer := during.pending_le isMedium
    have room := tidy.room
    refine ⟨by omega, ?_⟩
    rcases bdrvCoFlush_medium sound.along isMedium flushable world with
      ⟨ret, -, isFlush⟩ | ⟨same, isFlush⟩ | ⟨different, ⟨ret, -, isFlush⟩ | isFlush⟩
    · rw [isFlush]
      exact tidy.shows
    · intro isDirty
      rw [isFlush] at isDirty
      exact absurd (pending_eq_zero_iff.mpr same) (tidy.shows isDirty)
    · rw [isFlush]
      intro isDirty
      change (if medium = medium then false else _) = true at isDirty
      rw [if_pos rfl] at isDirty
      cases isDirty
    · rw [isFlush]
      intro isDirty
      change (if medium = medium then false else _) = true at isDirty
      rw [if_pos rfl] at isDirty
      cases isDirty
  · exact during.keeps few medium isMedium own tidy

end Flushes

end QemuGzvm.Block
