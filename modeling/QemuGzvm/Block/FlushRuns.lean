import QemuGzvm.Block.Flush

/-!
Contract: a flush that returns 0 covers every write that returned before it began.

Owns:
- what steps of a run leave as it is (`Later`);
- the invariant: a generation that is stored, or about to be, covers the writes counted in it.
-/

namespace QemuGzvm.Block

open QemuGzvm.Library

variable {node : FlushNode} {s t : FlushState} {call : FlushCall} {phase : FlushPhase} {id : Nat}

/-! ### What later states keep -/

/-- A state after a step: writes that are new among the settled ones are counted behind those
of before, or had nothing to do. -/
structure Later (s t : FlushState) : Prop where
  clock : s.clock ≤ t.clock
  writeCount : s.writeCount ≤ t.writeCount
  diskFlushes : s.diskFlushes ⊆ t.diskFlushes
  settled : ∀ id call, (t.writes id).settled = some call →
    (s.writes id).settled = some call ∨ s.writeCount < call.countedAs ∨ call.lastDone = none
  returned : ∀ id call returnedAt, t.writes id = .returned call returnedAt →
    s.writes id = .returned call returnedAt ∨ s.clock ≤ returnedAt

/-- The writes counted up to `count` have a flush to disk behind them that was through before
`limit`. -/
def Covered (s : FlushState) (count limit : Nat) : Prop :=
  ∀ id call doneAt, (s.writes id).settled = some call → call.countedAs ≤ count →
    call.lastDone = some doneAt →
    ∃ flush ∈ s.diskFlushes, doneAt < flush.startedAt ∧ flush.finishedAt < limit

theorem Covered.later {count limit m : Nat} (covered : Covered s count limit)
    (later : Later s t) (bounded : count ≤ s.writeCount) (le : limit ≤ m) :
    Covered t count m := by
  intro id call doneAt settled counted done
  rcases later.settled id call settled with before | new | nothing
  · obtain ⟨flush, member, fine⟩ := covered id call doneAt before counted done
    exact ⟨flush, later.diskFlushes member, by omega⟩
  · omega
  · rw [nothing] at done
    cases done

/-- A flush call and the writes that it has to cover. -/
structure CallFits (s : FlushState) (call : FlushCall) : Prop where
  gen : call.currentGen = UInt32.ofNat call.count
  begun : call.begunAt < s.clock
  bounded : call.count ≤ s.writeCount
  done : ∀ id write doneAt, (s.writes id).settled = some write → write.countedAs ≤ call.count →
    write.lastDone = some doneAt → doneAt < call.begunAt
  returned : ∀ id write returnedAt, s.writes id = .returned write returnedAt →
    returnedAt < call.begunAt → write.countedAs ≤ call.count

theorem CallFits.later (fits : CallFits s call) (later : Later s t) :
    CallFits t call := by
  constructor <;> grind [CallFits, Later]

def PhaseFits (s : FlushState) : FlushPhase → Prop
  | .idle => True
  | .exitedEarly _ _ => False
  | .waiting call | .woken call | .active call | .onOs call => CallFits s call
  | .toDisk call startedAt => CallFits s call ∧ call.begunAt < startedAt
  | .flushChildren call => CallFits s call ∧ Covered s call.count s.clock
  | .out call ret | .stored call ret =>
    CallFits s call ∧ (ret = 0 → Covered s call.count s.clock)
  | .returned call ret returnedAt =>
    CallFits s call ∧ (ret = 0 → Covered s call.count returnedAt)

theorem PhaseFits.later (fits : PhaseFits s phase) (later : Later s t) :
    PhaseFits t phase := by
  have kept (call : FlushCall) (fits : CallFits s call) := fits.later later
  have covers (call : FlushCall) (limit more : Nat) (fits : CallFits s call)
      (covered : Covered s call.count limit) := covered.later (m := more) later fits.bounded
  cases phase with
  | returned call ret returnedAt =>
    exact ⟨kept call fits.1, fun zero => covers call _ _ fits.1 (fits.2 zero) (Nat.le_refl _)⟩
  | _ => grind [PhaseFits, Later]

structure WriteFits (s : FlushState) (phase : WritePhase) : Prop where
  done : ∀ call, (phase = .preparing call ∨ phase = .inDriver call ∨ phase.settled = some call) →
    ∀ doneAt, call.lastDone = some doneAt → doneAt < s.clock
  counted : ∀ call, phase.settled = some call → call.countedAs ≤ s.writeCount

theorem WriteFits.later {phase : WritePhase} (fits : WriteFits s phase) (later : Later s t) :
    WriteFits t phase := by
  constructor <;> grind [WriteFits, Later]

/-! ### The invariant -/

structure FlushInv (s : FlushState) : Prop where
  writeGen : s.writeGen = UInt32.ofNat s.writeCount
  flushedGen : s.flushedGen = UInt32.ofNat s.flushedCount
  flushedCount : s.flushedCount ≤ s.writeCount
  covered : Covered s s.flushedCount s.clock
  flushes : ∀ id, PhaseFits s (s.flushes id)
  writes : ∀ id, WriteFits s (s.writes id)

theorem flushInv_start : FlushInv .start := by
  refine ⟨rfl, rfl, Nat.le_refl _, ?_, fun _ => trivial, fun _ => ⟨?_, ?_⟩⟩
  · intro id call doneAt settled
    cases settled
  · rintro call (isPhase | isPhase | isPhase) <;> cases isPhase
  · intro call isPhase
    cases isPhase

theorem FlushInv.later (inv : FlushInv s) (later : Later s t)
    (writeGen : t.writeGen = UInt32.ofNat t.writeCount)
    (stored : t.flushedGen = s.flushedGen ∧ t.flushedCount = s.flushedCount ∨
      ∃ call, CallFits t call ∧ Covered t call.count t.clock ∧
        t.flushedGen = call.currentGen ∧ t.flushedCount = call.count)
    (flushes : ∀ id, t.flushes id = s.flushes id ∨ PhaseFits t (t.flushes id))
    (writes : ∀ id, t.writes id = s.writes id ∨ WriteFits t (t.writes id)) : FlushInv t := by
  have covered := inv.covered.later later inv.flushedCount later.clock
  have keptFlush (id : Nat) := (inv.flushes id).later later
  have keptWrite (id : Nat) := (inv.writes id).later later
  obtain ⟨-, flushedGen, flushedCount, -, -, -⟩ := inv
  have bounded := later.writeCount
  constructor <;> grind [CallFits]

/-- Where the generations are the same, fewer than 2^32 writes apart, so are the counts. -/
theorem count_eq_of_gen {a b : Nat} (same : UInt32.ofNat a = UInt32.ofNat b)
    (near : a < b + 2 ^ 32 ∧ b < a + 2 ^ 32) : a = b := by
  grind [UInt32.toNat_ofNat']

/-- Fewer than 2^32 writes finished between the beginning of a flush that compares and of the
flush that stored its generation last. -/
def FlushState.near (s : FlushState) : FlushPhase → Bool
  | .onOs call =>
    decide (s.flushedCount < call.count + 2 ^ 32) && decide (call.count < s.flushedCount + 2 ^ 32)
  | _ => true

def compareNear (s : FlushState) : FlushStep → Bool
  | .compare id => s.near (s.flushes id)
  | _ => true

def insertedAt : FlushStep → Bool
  | .flushBegin _ inserted => inserted
  | _ => true

/-- Nodes whose flushes go to the disk. -/
structure FlushNode.Plain (node : FlushNode) : Prop where
  writable : node.readOnly = false
  sg : node.sg = false
  noFlush : node.noFlush = false
  bdrvCoFlush : node.bdrvCoFlush = false
  bdrvCoFlushToDisk : node.bdrvCoFlushToDisk = true

/-! ### Runs -/

attribute [local grind] FlushState.acquire FlushState.flushToDisk FlushState.coQueueNext
  WritePhase.settled PhaseFits

attribute [local grind cases] FlushInv CallFits

attribute [local grind =] Function.update_apply

attribute [local simp] FlushState.setWrite FlushState.setFlush FlushState.countWrite
  FlushState.released

section

variable (inv : FlushInv s)
include inv

theorem FlushInv.writeStep {phase : WritePhase}
    (writeGen : t.writeGen = UInt32.ofNat t.writeCount) (fits : WriteFits t phase)
    (later : Later s t) (stored : t.flushedGen = s.flushedGen ∧ t.flushedCount = s.flushedCount)
    (flushes : t.flushes = s.flushes) (writes : t.writes = Function.update s.writes id phase) :
    FlushInv t := by
  apply inv.later later writeGen (.inl stored)
  · exact fun _ => .inl (by rw [flushes])
  · rw [writes]
    grind

structure FlushMove (s t : FlushState) (id : Nat) (phase : FlushPhase) : Prop where
  clock : s.clock ≤ t.clock
  writes : t.writes = s.writes
  writeGen : t.writeGen = s.writeGen
  writeCount : t.writeCount = s.writeCount
  diskFlushes : s.diskFlushes ⊆ t.diskFlushes
  flushes : t.flushes = Function.update s.flushes id phase
  stored : t.flushedGen = s.flushedGen ∧ t.flushedCount = s.flushedCount ∨
    ∃ call, phase = .stored call 0 ∧ t.flushedGen = call.currentGen ∧ t.flushedCount = call.count
  fits : Later s t → PhaseFits t phase

theorem FlushInv.flushStep (id : Nat) (phase : FlushPhase)
    (move : FlushMove s t id phase) : FlushInv t := by
  obtain ⟨clock, writes, writeGen, writeCount, diskFlushes, flushes, stored, fits⟩ := move
  have later : Later s t := by
    constructor <;> grind
  apply inv.later later (by rw [writeGen, writeCount, inv.writeGen])
  · grind
  · rw [flushes]
    grind
  · exact fun _ => .inl (by rw [writes])

theorem FlushInv.setFlush 
    (fits : Later s (s.setFlush id phase) → PhaseFits (s.setFlush id phase) phase) :
    FlushInv (s.setFlush id phase) :=
  inv.flushStep id phase
    ⟨Nat.le_succ _, rfl, rfl, rfl, List.Subset.refl _, rfl, .inl ⟨rfl, rfl⟩, fits⟩

theorem FlushInv.acquire (fits : ∀ t, Later s t → t.clock = s.clock + 1 → t.writes = s.writes →
      t.writeCount = s.writeCount → CallFits t call) : FlushInv (s.acquire id call) := by
  unfold FlushState.acquire
  split
  · exact inv.flushStep id (.waiting call) ⟨Nat.le_succ _, rfl, rfl, rfl,
      List.Subset.refl _, rfl, .inl ⟨rfl, rfl⟩, fun later => fits _ later rfl rfl rfl⟩
  · exact inv.flushStep id (.active call) ⟨Nat.le_succ _, rfl, rfl, rfl,
      List.Subset.refl _, rfl, .inl ⟨rfl, rfl⟩, fun later => fits _ later rfl rfl rfl⟩

theorem FlushInv.coQueueNext : FlushInv s.coQueueNext := by
  unfold FlushState.coQueueNext
  split
  · exact inv
  · next next rest _ =>
    split
    · next call isWaiting =>
      have fits : CallFits s call := by simpa only [isWaiting, PhaseFits] using inv.flushes next
      exact inv.flushStep next (.woken call) ⟨Nat.le_refl _, rfl, rfl, rfl,
        List.Subset.refl _, rfl, .inl ⟨rfl, rfl⟩, fits.later⟩
    · exact inv.later ⟨Nat.le_refl _, Nat.le_refl _, List.Subset.refl _, fun _ _ => .inl,
        fun _ _ _ => .inl⟩ inv.writeGen (.inl ⟨rfl, rfl⟩) (fun _ => .inl rfl) (fun _ => .inl rfl)

theorem FlushInv.next (plain : node.Plain) {step : FlushStep}
    (near : compareNear s step = true) (inserted : insertedAt step = true)
    (taken : s.next node step = some t) : FlushInv t := by
  have known {id : Nat} {phase : FlushPhase} (isPhase : s.flushes id = phase) :
      PhaseFits s phase := isPhase ▸ inv.flushes id
  have done (id : Nat) := (inv.writes id).done
  have counted (id : Nat) := (inv.writes id).counted
  have finished (id : Nat) (call : WriteCall) (isPhase : s.writes id = .finished call) :=
    done id call (.inr (.inr (by rw [isPhase]; rfl)))
  have returned (id : Nat) (call : WriteCall) (at' : Nat)
      (isPhase : s.writes id = .returned call at') := counted id call (by rw [isPhase]; rfl)
  cases FlushState.next_took taken with
  | @writeBegin id phase | @driverBegin id call phase | @driverDone id call phase
  | @writeContinue id call phase | @writeReturn id call phase | @writeSkip id phase =>
    refine inv.writeStep inv.writeGen ?_ ?_ ⟨rfl, rfl⟩ rfl rfl
    all_goals constructor <;> dsimp <;> grind
  | @writeFinish id call phase =>
    refine inv.writeStep ?_ ?_ ?_ ⟨rfl, rfl⟩ rfl rfl
    · change s.writeGen + 1 = UInt32.ofNat (s.writeCount + 1)
      rw [inv.writeGen, UInt32.ofNat_add]
      rfl
    all_goals constructor <;> dsimp <;> grind
  | exitEarly phase early => grind [insertedAt, FlushNode.Plain]
  | flushBegin phase =>
    apply inv.acquire
    intro t later clock writes writeCount
    refine ⟨inv.writeGen, clock ▸ Nat.lt_succ_self _, Nat.le_of_eq writeCount.symm, ?_, ?_⟩
    all_goals rw [writes]
    · exact fun other write doneAt settled _ => done other write (.inr (.inr settled)) doneAt
    · exact fun other write at' isReturned _ => returned other write at' isReturned
  | flushResume phase => exact inv.acquire fun t later _ _ _ => CallFits.later (known phase) later
  | driverFlush phase own => grind [FlushNode.Plain]
  | osFailed phase failed | diskFailed phase failed =>
    have fits := known phase
    exact inv.setFlush fun later => ⟨CallFits.later (by grind) later, by omega⟩
  | osDone phase => exact inv.setFlush (known phase).later
  | @compare id call phase =>
    have fits : CallFits s call := known phase
    rw [compareNear, phase, FlushState.near, Bool.and_eq_true, decide_eq_true_eq,
      decide_eq_true_eq] at near
    unfold FlushState.flushToDisk
    rw [plain.noFlush, plain.bdrvCoFlushToDisk, Bool.false_or, Bool.true_or, if_pos rfl]
    split
    · next same =>
      have sameCount : s.flushedCount = call.count := by
        grind [count_eq_of_gen]
      exact inv.setFlush fun later => ⟨fits.later later,
        sameCount ▸ inv.covered.later later inv.flushedCount later.clock⟩
    · exact inv.setFlush fun later => ⟨fits.later later, fits.begun⟩
  | @diskDone id call startedAt ret phase =>
    -- It covers all the writes that its call has to.
    have fits : CallFits s call ∧ call.begunAt < startedAt := known phase
    refine inv.flushStep id (.flushChildren call) ⟨Nat.le_succ _, rfl, rfl, rfl,
      List.subset_cons_self _ _, rfl, .inl ⟨rfl, rfl⟩, fun later => ⟨fits.1.later later, ?_⟩⟩
    intro other write doneAt settled counted isDone
    exact ⟨⟨startedAt, s.clock⟩, List.mem_cons_self,
      Nat.lt_trans (fits.1.done other write doneAt settled counted isDone) fits.2,
      Nat.lt_succ_self _⟩
  | @childrenDone id call ret phase =>
    have fits : CallFits s call ∧ Covered s call.count s.clock := known phase
    exact inv.setFlush fun later => ⟨fits.1.later later,
      fun _ => fits.2.later later fits.1.bounded later.clock⟩
  | @store id call phase =>
    have fits : PhaseFits s (.stored call 0) := show PhaseFits s (.out call 0) from known phase
    exact inv.flushStep id (.stored call 0) ⟨Nat.le_succ _, rfl, rfl, rfl,
      List.Subset.refl _, rfl, .inr ⟨call, rfl, rfl, rfl⟩, fits.later⟩
  | @storeNothing id call ret phase failed =>
    have fits : PhaseFits s (.stored call ret) := show PhaseFits s (.out call ret) from known phase
    exact inv.setFlush fits.later
  | @release id call ret phase =>
    have fits : CallFits s call ∧ (ret = 0 → Covered s call.count s.clock) := known phase
    apply FlushInv.coQueueNext
    exact inv.flushStep id (.returned call ret s.clock) ⟨Nat.le_succ _, rfl, rfl,
      rfl, List.Subset.refl _, rfl, .inl ⟨rfl, rfl⟩, fun later => ⟨fits.1.later later,
        fun zero => (fits.2 zero).later later fits.1.bounded (Nat.le_refl _)⟩⟩

end

theorem flushInv_reached (plain : node.Plain)
    (reached : (flushSystem node).ReachedBy
      (fun s step => compareNear s step = true ∧ insertedAt step = true) s) : FlushInv s := by
  apply reached.invariant FlushInv
  · rintro s rfl
    exact flushInv_start
  · intro s step t inv allowed taken
    exact inv.next plain allowed.1 allowed.2 taken

end QemuGzvm.Block
