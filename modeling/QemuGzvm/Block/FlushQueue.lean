import QemuGzvm.Block.FlushRuns
import Mathlib.Data.List.Nodup

/-!
Contract: flushes that wait for another one, and what a flush that returns 0 covers.

Owns:
- the queue of flushes: whoever waits is woken after those in front;
- the result: writes that returned before a flush began are on disk when it returns 0.
-/

namespace QemuGzvm.Block

open QemuGzvm.Library

variable {node : FlushNode} {s t : FlushState} {call : FlushCall} {id : Nat} {step : FlushStep}
  {allowed : FlushState → FlushStep → Prop}

/-! ### The queue -/

structure QueueInv (s : FlushState) : Prop where
  listed : ∀ id, id ∈ s.flushQueue ↔ ∃ call, s.flushes id = .waiting call
  nodup : s.flushQueue.Nodup
  held : ∀ id, (s.flushes id).holds = true → s.activeFlushReq = true
  holder : s.activeFlushReq = true → ∃ id, (s.flushes id).holds = true
  single : ∀ id other, (s.flushes id).holds = true → (s.flushes other).holds = true → id = other
  progress : s.flushQueue ≠ [] → s.activeFlushReq = true ∨ ∃ id call, s.flushes id = .woken call

theorem queueInv_start : QueueInv .start where
  listed := fun _ => ⟨nofun, fun ⟨_, isWaiting⟩ => nomatch isWaiting⟩
  nodup := List.nodup_nil
  held := nofun
  holder := nofun
  single := nofun
  progress := fun some => absurd rfl some

attribute [local grind] FlushPhase.holds

attribute [local grind cases] QueueInv

attribute [local grind =] Function.update_apply

attribute [local simp] FlushState.setWrite FlushState.setFlush FlushState.countWrite
  FlushState.released

/-- A call moves on and neither enters nor leaves the queue, nor takes or clears
`active_flush_req`. -/
theorem QueueInv.move (inv : QueueInv s) (id : Nat)
    (before : ∀ call, s.flushes id ≠ .waiting call ∧ s.flushes id ≠ .woken call)
    (after : ∀ call, t.flushes id ≠ .waiting call)
    (same : (t.flushes id).holds = (s.flushes id).holds)
    (queue : t.flushQueue = s.flushQueue) (active : t.activeFlushReq = s.activeFlushReq)
    (others : ∀ other, other ≠ id → t.flushes other = s.flushes other) : QueueInv t := by
  have holds : ∀ other, (t.flushes other).holds = (s.flushes other).holds := by
    grind
  refine ⟨?_, ?_, ?_, ?_, ?_, ?_⟩
  · grind
  · grind
  · grind
  · simpa only [active, holds] using inv.holder
  · grind
  · intro some
    rw [queue] at some
    rcases inv.progress some with isActive | ⟨other, call, isWoken⟩
    · exact .inl (active.trans isActive)
    · exact .inr ⟨other, call, by grind⟩

theorem QueueInv.acquire (inv : QueueInv s) (unlisted : id ∉ s.flushQueue)
    (free : (s.flushes id).holds = false) :
    QueueInv (s.acquire id call) := by
  unfold FlushState.acquire
  split
  · next active =>
    obtain ⟨holder, holding⟩ := inv.holder active
    refine ⟨fun other => ?_, ?_, ?_, fun _ => ⟨holder, ?_⟩, ?_, fun _ => .inl active⟩ <;> dsimp
    · by_cases own : other = id
      · simp [own]
      · grind
    all_goals grind
  · refine ⟨?_, ?_, ?_, fun _ => ⟨id, ?_⟩, ?_, fun _ => .inl rfl⟩ <;> dsimp <;> grind

theorem QueueInv.release (inv : QueueInv s) {ret : Int} (isStored : s.flushes id = .stored call ret) :
    QueueInv (s.released id call ret).coQueueNext := by
  unfold FlushState.coQueueNext
  split
  · refine ⟨?_, ?_, ?_, ?_, ?_, ?_⟩ <;> dsimp at * <;> grind
  · next next rest queue =>
    split
    · next waits isWaiting =>
      refine ⟨?_, ?_, ?_, ?_, ?_, fun _ => .inr ⟨next, waits, ?_⟩⟩ <;> dsimp at * <;> grind
    · next other =>
      obtain ⟨waits, isWaiting⟩ := (inv.listed next).mp (by dsimp at queue; grind)
      exact absurd isWaiting (by dsimp at other; grind)

theorem QueueInv.next (inv : QueueInv s) (taken : s.next node step = some t) : QueueInv t := by
  cases FlushState.next_took taken with
  | @flushBegin id inserted phase => exact inv.acquire (by grind) (by grind)
  | @flushResume id call phase => exact inv.acquire (by grind) (by grind)
  | release phase => exact inv.release phase
  | @exitEarly id | @driverFlush id | @osFailed id | @osDone id | @diskFailed id | @diskDone id
  | @childrenDone id | @store id | @storeNothing id =>
    apply inv.move id <;> dsimp <;> grind
  | @compare id call phase =>
    unfold FlushState.flushToDisk
    split
    · apply inv.move id <;> dsimp <;> grind
    · split <;> apply inv.move id <;> dsimp <;> grind
  | _ => exact ⟨inv.listed, inv.nodup, inv.held, inv.holder, inv.single, inv.progress⟩

/-! ### Waking -/

def FlushStep.isRelease : FlushStep → Bool
  | .release _ => true
  | _ => false

/-- Steps other than the release leave the queue, or add to its end. -/
theorem queue_next (other : step.isRelease = false) (taken : s.next node step = some t) :
    ∃ more, t.flushQueue = s.flushQueue ++ more := by
  cases FlushState.next_took taken with
  | @flushBegin id | @flushResume id =>
    unfold FlushState.acquire
    split
    · exact ⟨[id], rfl⟩
    · exact ⟨[], (List.append_nil _).symm⟩
  | compare phase => exact ⟨[], by grind [FlushState.flushToDisk, FlushState.setFlush]⟩
  | release phase => cases other
  | _ => exact ⟨[], (List.append_nil _).symm⟩

theorem QueueInv.release_wakes (inv : QueueInv s) {next : Nat} {rest : List Nat}
    (queue : s.flushQueue = next :: rest) (taken : s.next node (.release id) = some t) :
    t.flushQueue = rest ∧ ∃ call, t.flushes next = .woken call := by
  cases FlushState.next_took taken with
  | @release _ call ret phase =>
    obtain ⟨waits, isWaiting⟩ := (inv.listed next).mp (queue ▸ List.mem_cons_self)
    have kept : (s.released id call ret).flushes next = .waiting waits := by
      dsimp
      grind
    simp only [FlushState.coQueueNext,
      show (s.released id call ret).flushQueue = next :: rest from queue, kept]
    exact ⟨trivial, waits, Function.update_self _ _ _⟩

/-- The steps of a run, whichever they are. -/
def flushRun (node : FlushNode) (s : FlushState) (steps : List FlushStep) : Option FlushState :=
  LabelledSystem.runLabels (FlushState.next node) (fun _ _ => True) s steps

theorem flushRun_cons {rest : List FlushStep} :
    flushRun node s (step :: rest) = (s.next node step).bind fun t => flushRun node t rest := by
  rw [flushRun, LabelledSystem.runLabels, if_pos trivial]
  rfl

/-- A call in the queue is woken by the time that as many flushes have ended as were in front
of it, and one more. -/
theorem QueueInv.wakes (inv : QueueInv s) {position : Nat}
    (waits : s.flushQueue[position]? = some id) {steps : List FlushStep}
    (ran : flushRun node s steps = some t) (enough : position < steps.countP FlushStep.isRelease) :
    ∃ first u, first <+: steps ∧ flushRun node s first = some u ∧
      ∃ call, u.flushes id = .woken call := by
  induction steps generalizing s position with
  | nil => cases enough
  | cons step rest ih =>
    rw [flushRun_cons] at ran
    obtain ⟨middle, taken, ran⟩ := Option.bind_eq_some_iff.mp ran
    have goOn : ∀ {position' : Nat}, middle.flushQueue[position']? = some id →
        position' < rest.countP FlushStep.isRelease →
        ∃ first u, first <+: step :: rest ∧ flushRun node s first = some u ∧
          ∃ call, u.flushes id = .woken call := by
      intro position' waits' enough'
      obtain ⟨first, u, isPrefix, reached, woken⟩ :=
        ih (inv.next taken) waits' ran enough'
      refine ⟨step :: first, u, List.prefix_cons_inj step |>.mpr isPrefix, ?_, woken⟩
      rw [flushRun_cons, taken, Option.bind_some, reached]
    cases isRelease : step.isRelease with
    | false =>
      obtain ⟨more, queue⟩ := queue_next isRelease taken
      rw [List.countP_cons_of_neg (by rw [isRelease]; decide)] at enough
      apply goOn _ enough
      rw [queue, List.getElem?_append_left]
      · exact waits
      · exact (List.getElem?_eq_some_iff.mp waits).1
    | true =>
      cases step with
      | release other =>
        rw [List.countP_cons_of_pos isRelease] at enough
        cases queue : s.flushQueue with
        | nil =>
          rw [queue] at waits
          cases waits
        | cons next others =>
          obtain ⟨queue', woken⟩ := inv.release_wakes queue taken
          rw [queue] at waits
          cases position with
          | zero =>
            cases waits
            refine ⟨[.release other], middle, ?_, ?_, woken⟩
            · exact ⟨rest, rfl⟩
            · rw [flushRun_cons, taken]
              rfl
          | succ position =>
            rw [List.getElem?_cons_succ] at waits
            exact goOn (queue'.symm ▸ waits) (by omega)
      | _ => cases isRelease

/-! ### The results -/

/-- Whoever returned 0 has a flush to disk behind the driver operations of all writes that had
returned before it began. -/
def FlushCovers (s : FlushState) : Prop :=
  ∀ flush begunAt returnedAt, (s.flushes flush).result = some (begunAt, 0, returnedAt) →
    ∀ write call wroteAt, s.writes write = .returned call wroteAt → wroteAt < begunAt →
    ∀ doneAt, call.lastDone = some doneAt →
    ∃ disk ∈ s.diskFlushes, doneAt < disk.startedAt ∧ disk.finishedAt < returnedAt

/-- While calls wait, one holds `active_flush_req` or is woken and will take it; and each of
them is woken after those in front. -/
def FlushWakes (node : FlushNode) (s : FlushState) : Prop :=
  (∀ id call, s.flushes id = .waiting call →
    (∃ other, (s.flushes other).holds = true) ∨ ∃ other call', s.flushes other = .woken call') ∧
  ∀ id call, s.flushes id = .waiting call →
    ∃ position, s.flushQueue[position]? = some id ∧
      ∀ steps t, flushRun node s steps = some t → position < steps.countP FlushStep.isRelease →
        ∃ first u, first <+: steps ∧ flushRun node s first = some u ∧
          ∃ call', u.flushes id = .woken call'

theorem FlushInv.covers (inv : FlushInv s) : FlushCovers s := by
  intro flush begunAt returnedAt result write call wroteAt returned early doneAt done
  have fits := inv.flushes flush
  cases phase : s.flushes flush with
  | returned flushCall ret at' =>
    rw [phase] at result fits
    cases result
    have counted := fits.1.returned write call wroteAt returned early
    have settled : (s.writes write).settled = some call := by
      rw [returned]
      rfl
    exact fits.2 rfl write call doneAt settled counted done
  | exitedEarly begunAt' returnedAt' =>
    rw [phase] at fits
    exact fits.elim
  | _ =>
    rw [phase] at result
    cases result

theorem QueueInv.flushWakes (inv : QueueInv s) : FlushWakes node s := by
  constructor
  · intro id call waits
    have member := (inv.listed id).mpr ⟨call, waits⟩
    exact (inv.progress (List.ne_nil_of_mem member)).imp_left inv.holder
  · intro id call waits
    obtain ⟨position, low, isId⟩ := List.mem_iff_getElem.mp ((inv.listed id).mpr ⟨call, waits⟩)
    have found : s.flushQueue[position]? = some id := List.getElem?_eq_some_iff.mpr ⟨low, isId⟩
    exact ⟨position, found, fun steps t ran enough => inv.wakes found ran enough⟩

theorem queueInv_reached (reached : (flushSystem node).ReachedBy allowed s) : QueueInv s := by
  apply reached.invariant QueueInv
  · rintro s rfl
    exact queueInv_start
  · intro s step t inv _ taken
    exact inv.next taken

/-- Every interleaving of writes, discards and flushes on an inserted node that is not an SG
device and whose driver has no `bdrv_co_flush` of its own. -/
theorem flush_covers_and_wakes (plain : node.Plain)
    (reached : (flushSystem node).ReachedBy
      (fun s step => compareNear s step = true ∧ insertedAt step = true) s) :
    FlushCovers s ∧ FlushWakes node s :=
  ⟨(flushInv_reached plain reached).covers, (queueInv_reached reached).flushWakes⟩

def filePosixNode : FlushNode where
  readOnly := false
  sg := false
  noFlush := false
  bdrvCoFlush := false
  bdrvCoFlushToOs := false
  bdrvCoFlushToDisk := true
  bdrvAioFlush := false

def oneWrite : List FlushStep :=
  [.writeBegin 0, .driverBegin 0, .driverDone 0, .writeFinish 0, .writeReturn 0]

/-- A flush that goes to the disk, and a second one that waits for it. -/
theorem flush_covers_and_wakes_twoFlushes :
    ∃ s, s.flushes 0 = .returned ⟨1, 1, 5⟩ 0 12 ∧ s.flushes 1 = .woken ⟨1, 1, 6⟩ ∧
      s.diskFlushes = [⟨8, 9⟩] ∧ FlushCovers s ∧ FlushWakes filePosixNode s := by
  obtain ⟨s, reached, first, second, disk⟩ : ∃ s, (flushSystem filePosixNode).ReachedBy
      (fun s step => compareNear s step = true ∧ insertedAt step = true) s ∧
      s.flushes 0 = .returned ⟨1, 1, 5⟩ 0 12 ∧ s.flushes 1 = .woken ⟨1, 1, 6⟩ ∧
      s.diskFlushes = [⟨8, 9⟩] :=
    LabelledSystem.exists_reachedBy
      (oneWrite ++ [.flushBegin 0 true, .flushBegin 1 true, .flushToOs 0 0, .compare 0,
        .toDiskDone 0 0, .childrenDone 0 0, .store 0, .release 0]) (by decide +kernel)
  have plain : filePosixNode.Plain := ⟨rfl, rfl, rfl, rfl, rfl⟩
  exact ⟨s, first, second, disk, flush_covers_and_wakes plain reached⟩

/-- After `oneWrite`, a flush that returns 0 and has made no flush to disk. -/
theorem not_flushCovers
    [∀ s step, Decidable (allowed s step)] (steps : List FlushStep) (returnedAt : Nat)
    (ran : ∃ s ∈ LabelledSystem.runLabels (FlushState.next node) allowed .start (oneWrite ++ steps),
      (s.flushes 0).result = some (5, 0, returnedAt) ∧
      s.writes 0 = .returned ⟨some 2, 1⟩ 4 ∧ s.diskFlushes = []) :
    ∃ s, (flushSystem node).ReachedBy allowed s ∧ ¬FlushCovers s := by
  obtain ⟨s, reached, returned, written, none⟩ := LabelledSystem.exists_reachedBy _ ran
  refine ⟨s, reached, fun covers => ?_⟩
  obtain ⟨disk, member, -⟩ :=
    covers 0 5 returnedAt returned 0 ⟨some 2, 1⟩ 4 written (by decide) 2 rfl
  rw [none] at member
  cases member

/-- Three ways for a flush to return 0 without a flush to disk: no medium, an SG device, a
driver with a `bdrv_co_flush` of its own. -/
theorem flush_not_to_disk :
    (∃ s, (flushSystem filePosixNode).ReachedBy (fun s step => compareNear s step = true) s ∧
      ¬FlushCovers s) ∧
    (∃ s, (flushSystem { filePosixNode with sg := true }).ReachedBy
      (fun s step => compareNear s step = true ∧ insertedAt step = true) s ∧ ¬FlushCovers s) ∧
    ∃ s, (flushSystem { filePosixNode with bdrvCoFlush := true }).ReachedBy
      (fun s step => compareNear s step = true ∧ insertedAt step = true) s ∧ ¬FlushCovers s := by
  refine ⟨?_, ?_, ?_⟩
  · exact not_flushCovers [.flushBegin 0 false] 5 (by decide +kernel)
  · exact not_flushCovers [.flushBegin 0 true] 5 (by decide +kernel)
  · exact not_flushCovers [.flushBegin 0 true, .driverFlush 0 0, .store 0, .release 0] 8
      (by decide +kernel)

end QemuGzvm.Block
