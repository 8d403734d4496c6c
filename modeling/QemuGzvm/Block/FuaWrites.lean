import QemuGzvm.Block.FuaFlush

/-!
Contract: a part of a write with `BDRV_REQ_FUA`, at a node whose driver has no such flag.

Owns:
- the driver writes of a part, up to the flush that stands for the flag;
- what that flush leaves: nothing unflushed below a node with children; at a medium, a flush that
  looks at the generations of before the write.
-/

namespace QemuGzvm.Block

variable {graph : BlockGraph} {drivers : BlockDrivers} {most : Nat → Nat} {bs : Nat}
  {below : Fin bs → NodeOp → BlockWorld → Int × BlockWorld} {world : BlockWorld}
  {middle : BlockWorld} {flags : BdrvRequestFlags} {node : BlockNode bs} {isZero : Bool}
  {part : AlignedPart}

/-! ### Driver writes -/

/-- Work on a request before any flush of the node itself. -/
structure Unflushed (graph : BlockGraph) (most : Nat → Nat) (bs : Nat)
    (before after : BlockWorld) : Prop where
  during : During graph most bs before after
  stored : IsMedium graph bs → after.flushedGen bs = before.flushedGen bs

/-- If the node is a medium, it has been written to since its last flush. -/
def WrittenTo (graph : BlockGraph) (bs : Nat) (world : BlockWorld) : Prop :=
  IsMedium graph bs → dirty bs world.events = true

theorem Unflushed.refl (world : BlockWorld) : Unflushed graph most bs world world :=
  ⟨.refl world, fun _ => rfl⟩

theorem Unflushed.trans {before after : BlockWorld} (first : Unflushed graph most bs before middle)
    (second : Unflushed graph most bs middle after) : Unflushed graph most bs before after :=
  ⟨first.during.trans second.during,
    fun isMedium => (second.stored isMedium).trans (first.stored isMedium)⟩

section Driver

theorem driverWrite_medium (along : Along graph drivers) (isMedium : IsMedium graph bs) (call : DriverCall)
    (world : BlockWorld) :
    driverWrite (graph bs) drivers below call world =
      if drivers.ret world bs call = enotsup then (enotsup, world)
      else (drivers.ret world bs call, world.record (.wrote bs)) := by
  rw [driverWrite, driverCall_medium along isMedium, isMedium]
  by_cases unsupported : drivers.ret world bs call = enotsup
  · simp [unsupported]
  · simp [unsupported]

variable (sound : SoundBelow graph drivers most below)
include sound

theorem driverWrite_unflushed (call : DriverCall) (world : BlockWorld) :
    Unflushed graph most bs world (driverWrite (graph bs) drivers below call world).2 := by
  refine ⟨(driverWrite_works sound (graph bs) call world).during, ?_⟩
  intro isMedium
  rw [driverWrite_medium sound.along isMedium]
  split
  · rfl
  · rfl

theorem driverWrite_written {call : DriverCall}
    (zero : (driverWrite (graph bs) drivers below call world).1 = 0) :
    WrittenTo graph bs (driverWrite (graph bs) drivers below call world).2 := by
  intro isMedium
  rw [driverWrite_medium sound.along isMedium] at zero ⊢
  split at zero
  · exact absurd (show enotsup = 0 from zero) (by decide)
  · next supported =>
    rw [if_neg supported]
    exact if_pos rfl

end Driver

/-- Without the flag, the driver is called and nothing else. -/
theorem bdrvDriverPwritev_plain (node : BlockNode bs) (offset bytes : Nat) (world : BlockWorld) :
    bdrvDriverPwritev node drivers below offset bytes false world =
      driverWrite node drivers below (.pwritev offset bytes false) world := by
  simp [bdrvDriverPwritev]

/-- Driver writes, and then the flush that stands for the flag. -/
def FlushedWrite (graph : BlockGraph) (drivers : BlockDrivers) (most : Nat → Nat)
    (below : Fin bs → NodeOp → BlockWorld → Int × BlockWorld) (world : BlockWorld)
    (answer : Int × BlockWorld) : Prop :=
  ∃ middle, Unflushed graph most bs world middle ∧ WrittenTo graph bs middle ∧
    answer = bdrvCoFlush (graph bs) drivers below middle

/-- A node whose driver leaves the flag to the block layer. -/
structure WithoutFua (node : BlockNode bs) : Prop where
  flushable : Flushable node
  supportedWriteFua : node.supportedWriteFua = false
  supportedZeroFua : node.supportedZeroFua = false

theorem FlushedWrite.after {answer : Int × BlockWorld}
    (unflushed : Unflushed graph most bs world middle)
    (flushed : FlushedWrite graph drivers most below middle answer) :
    FlushedWrite graph drivers most below world answer := by
  obtain ⟨last, later, written, isFlush⟩ := flushed
  exact ⟨last, unflushed.trans later, written, isFlush⟩

section Parts

variable (sound : SoundBelow graph drivers most below) (without : WithoutFua (graph bs))
  {bytes offset : Nat} {needFlush : Bool}

include sound without

theorem bdrvDriverPwritev_flushed
    (fine : 0 ≤ (bdrvDriverPwritev (graph bs) drivers below offset bytes true world).1) :
    FlushedWrite graph drivers most below world
      (bdrvDriverPwritev (graph bs) drivers below offset bytes true world) := by
  simp only [bdrvDriverPwritev, without.supportedWriteFua, without.flushable.noFlush, Bool.not_false,
    Bool.and_true, Bool.and_false, and_true] at fine ⊢
  split at fine
  · next zero =>
    rw [if_pos zero]
    exact ⟨_, driverWrite_unflushed sound _ world, driverWrite_written sound zero, rfl⟩
  · next failed =>
    have le := (driverWrite_works sound (graph bs) (.pwritev offset bytes false)
      world).ret_le
    omega

/-- All pieces but the last are written without the flag. -/
theorem transferLoop_flushed {remaining : Nat} (some : 0 < remaining)
    (fine : 0 ≤ (transferLoop (graph bs) drivers below true offset remaining world).1) :
    FlushedWrite graph drivers most below world
      (transferLoop (graph bs) drivers below true offset remaining world) := by
  generalize isTrue : true = fua at fine ⊢
  fun_induction transferLoop (graph bs) drivers below fua offset remaining world with
  | case1 offset remaining world some num localFua answer failed => omega
  | case2 offset remaining world some num localFua answer went ih =>
    subst isTrue
    by_cases last : remaining ≤ (graph bs).bl.transfer
    · have isNum : num = remaining := Nat.min_eq_left last
      have isFua : localFua = true := by
        simp [localFua, isNum]
      have isAnswer : answer =
          bdrvDriverPwritev (graph bs) drivers below offset num true world := by
        rw [← isFua]
      have zero : answer.1 = 0 :=
        Int.le_antisymm (bdrvDriverPwritev_works sound _ _ _ _).ret_le
          (Int.not_lt.mp went)
      have isEnd : transferLoop (graph bs) drivers below true (offset + num) (remaining - num)
          answer.2 = answer := by
        rw [isNum, Nat.sub_self, transferLoop, if_neg (Nat.lt_irrefl 0), ← zero]
      rw [isEnd, isAnswer]
      apply bdrvDriverPwritev_flushed sound without
      exact Int.le_of_eq (isAnswer ▸ zero.symm)
    · have isNum : num = (graph bs).bl.transfer := Nat.min_eq_right (by omega)
      have more : 0 < remaining - num := by omega
      have isFua : localFua = false := by
        simp [localFua, without.supportedWriteFua]
        omega
      have plain : answer =
          driverWrite (graph bs) drivers below (.pwritev offset num false) world := by
        rw [← bdrvDriverPwritev_plain, ← isFua]
      have unflushed : Unflushed graph most bs world answer.2 := by
        rw [plain]
        exact driverWrite_unflushed sound _ world
      exact FlushedWrite.after unflushed (ih more fine)
  | case3 offset remaining world none => exact absurd some none

/-- A turn of the loop over zeroes that is through has written, and asks for a flush. -/
theorem zeroTurn_unflushed (fua : flags.fua = true) {num : Nat} {world : BlockWorld}
    {turn : ZeroTurn}
    (ran : zeroTurn (graph bs) drivers below flags offset num needFlush world = turn) :
    Unflushed graph most bs world turn.world ∧
      (turn.ret = 0 → WrittenTo graph bs turn.world ∧ turn.needFlush = true) := by
  subst ran
  have zeroes : Unflushed graph most bs world
      (driverPwriteZeroes (graph bs) drivers below flags offset num world).2 := by
    unfold driverPwriteZeroes
    split
    · exact driverWrite_unflushed sound _ world
    · exact .refl world
  unfold zeroTurn
  dsimp only
  split
  · rw [without.supportedWriteFua, fua, Bool.and_false, bdrvDriverPwritev_plain]
    refine ⟨zeroes.trans (driverWrite_unflushed sound _ _), ?_⟩
    intro zero
    exact ⟨driverWrite_written sound zero, by simp⟩
  · refine ⟨zeroes, ?_⟩
    intro zero
    dsimp only at zero
    constructor
    · unfold driverPwriteZeroes at zero ⊢
      split at zero
      · grind [driverWrite_written]
      · exact absurd (show enotsup = 0 from zero) (by decide)
    · rw [zero, without.supportedZeroFua, fua]
      simp [enotsup]

theorem zeroLoop_unflushed (fua : flags.fua = true) {head tail : Fin (graph bs).bl.zeroAlignment}
    (some : 0 < bytes ∨ (WrittenTo graph bs world ∧ needFlush = true))
    {done : Bool × BlockWorld} (ran : zeroLoop (graph bs) drivers below flags head tail offset
      bytes needFlush world = (0, done)) :
    Unflushed graph most bs world done.2 ∧ WrittenTo graph bs done.2 ∧ done.1 = true := by
  fun_induction zeroLoop (graph bs) drivers below flags head tail offset bytes needFlush world with
  | case1 head offset bytes needFlush world more num turn went ih =>
    obtain ⟨unflushed, through⟩ := zeroTurn_unflushed sound without fua (rfl : _ = turn)
    obtain ⟨others, written, flush⟩ := ih (Or.inr (through went)) ran
    exact ⟨unflushed.trans others, written, flush⟩
  | case2 head offset bytes needFlush world more num turn failed =>
    exact absurd (congrArg Prod.fst ran) failed
  | case3 head offset bytes needFlush world none =>
    cases ran
    rcases some with more | ⟨written, flush⟩
    · exact absurd more none
    · exact ⟨.refl world, written, flush⟩

theorem bdrvCoDoPwriteZeroes_flushed (fua : flags.fua = true) (some : 0 < bytes)
    (fine : 0 ≤ (bdrvCoDoPwriteZeroes (graph bs) drivers below offset bytes flags world).1) :
    FlushedWrite graph drivers most below world
      (bdrvCoDoPwriteZeroes (graph bs) drivers below offset bytes flags world) := by
  unfold bdrvCoDoPwriteZeroes at fine ⊢
  split at fine
  · exact absurd (show 0 ≤ enotsup from fine) (by decide)
  · next allowed =>
    rw [if_neg allowed]
    dsimp only at fine ⊢
    split at fine
    · next done =>
      rw [if_pos done]
      obtain ⟨unflushed, written, -⟩ :=
        zeroLoop_unflushed sound without fua (Or.inl some) (Prod.ext done.1 rfl)
      exact ⟨_, unflushed, written, rfl⟩
    · next unfinished =>
      -- A loop that is through always asks for the flush.
      have zero := Int.le_antisymm (zeroLoop_works sound flags _ _ _ _ _ _).ret_le fine
      have asked := zeroLoop_unflushed sound without fua (Or.inl some) (Prod.ext zero rfl)
      exact absurd ⟨zero, asked.2.2⟩ unfinished

end Parts

/-! ### A part of a request -/

/-- Nothing is written: zeroes, and none of them. -/
def Quiet (node : BlockNode bs) (part : AlignedPart) (isZero : Bool) : Prop :=
  zeroes node part isZero = true ∧ part.bytes = 0

theorem bdrvCoDoPwriteZeroes_none {offset : Nat} :
    (bdrvCoDoPwriteZeroes node drivers below offset 0 flags world).2 = world := by
  unfold bdrvCoDoPwriteZeroes
  split
  · rfl
  · rw [zeroLoop]
    rfl

theorem alignedBody_quiet (quiet : Quiet node part isZero) :
    (alignedBody node drivers below part flags isZero world).2 = world := by
  unfold alignedBody
  rw [if_pos quiet.1, quiet.2]
  split
  · rfl
  · exact bdrvCoDoPwriteZeroes_none

theorem alignedBody_flushed (sound : SoundBelow graph drivers most below)
    (without : WithoutFua (graph bs)) (fua : flags.fua = true)
    (plain : flags.writeCompressed = false) (loud : ¬Quiet (graph bs) part isZero)
    (fine : 0 ≤ (alignedBody (graph bs) drivers below part flags isZero world).1) :
    FlushedWrite graph drivers most below world
      (alignedBody (graph bs) drivers below part flags isZero world) := by
  unfold alignedBody at fine ⊢
  rw [without.flushable.writable, if_neg Bool.false_ne_true, plain, fua] at fine ⊢
  by_cases zero : zeroes (graph bs) part isZero = true
  · rw [if_pos zero] at fine ⊢
    apply bdrvCoDoPwriteZeroes_flushed sound without fua _ fine
    apply Nat.pos_of_ne_zero
    exact fun none => loud ⟨zero, none⟩
  · grind [bdrvDriverPwritev_flushed, transferLoop_flushed]

end QemuGzvm.Block
