import QemuGzvm.Block.SerialisingRuns

/-!
Contract: a padded write and the writes of others.

Owns:
- exclusion: while a padded write has its padding read and not yet written back, nobody else
  writes to its interval;
- the steps that break it.

`bdrv_find_conflicting_request` skips requests that wait, so that they are not waited for in
turn. A padded write waits again before each later driver call. If it finds another request that
is listed and has not come to its own wait, it waits for that one, which then skips it and
writes to blocks whose padding has been read.
-/

namespace QemuGzvm.Block

open QemuGzvm.Library

variable {s t : NodeState} {id : Nat} {u : NodeState} {step : NodeStep}

/-- While a padded write has read padding that it has not written back, no other request whose
interval overlaps its own is in a driver write. -/
def Exclusive (s : NodeState) : Prop :=
  ∀ id other, id ≠ other → (s.requests id).guarded = true →
    (s.requests id).req.overlaps (s.requests other).req = true →
    (s.requests other).writing = false

/-- Nor is one about to be. -/
def Guarded (s : NodeState) : Prop :=
  ∀ id other, id ≠ other → (s.requests id).guarded = true →
    (s.requests id).req.overlaps (s.requests other).req = true →
    (s.requests other).writePast = false

theorem Guarded.exclusive (guarded : Guarded s) : Exclusive s := by
  grind [Guarded, Exclusive, RequestState.writing, RequestState.writePast]

/-- A request gets through its wait to a write although a padded write that overlaps it has
read its padding: that one waits itself. -/
def NodeState.overtakes (s : NodeState) (id : Nat) : Bool :=
  (s.requests id).writesNext && (s.findConflicting id).isNone &&
    s.tracked.any fun other =>
      decide (other ≠ id) && (s.requests other).guarded &&
        (s.requests other).req.overlaps (s.requests id).req && (s.waitingFor other).isSome

/-- The steps that end a wait before a driver call. -/
def overtaking (s : NodeState) : NodeStep → Bool
  | .lockWait id => s.overtakes id
  | .relock id => decide ((s.requests id).pc = .woken false) && s.overtakes id
  | _ => false

attribute [local grind] RequestPc.isListed RequestPc.outside RequestState.counted
  RequestState.past RequestState.guarded RequestState.writePast RequestState.writesNext
  NodeState.inDriver NodeState.outOfDriver NodeState.afterDriver

attribute [local grind =] Function.update_apply RequestState.fits_iff

attribute [local simp] NodeState.begun NodeState.setRequest NodeState.setPc
  NodeState.setSerialising NodeState.stopWaiting NodeState.decCounter NodeState.unlist

theorem Guarded.move (guarded : Guarded s) (id : Nat)
    (others : ∀ other, other ≠ id → t.requests other = s.requests other)
    (guards : (t.requests id).guarded = true → ∀ other, other ≠ id →
      (s.requests other).writePast = true →
      (t.requests id).req.overlaps (s.requests other).req = false)
    (writes : (t.requests id).writePast = true → ∀ other, other ≠ id →
      (s.requests other).guarded = true →
      (s.requests other).req.overlaps (t.requests id).req = false) : Guarded t := by
  intro a b different
  have before := guarded a b different
  grind

theorem Guarded.quiet (guarded : Guarded s) (id : Nat)
    (others : ∀ other, other ≠ id → t.requests other = s.requests other)
    (reads : (t.requests id).guarded = true →
      (s.requests id).guarded = true ∧ (t.requests id).req = (s.requests id).req)
    (quiet : (t.requests id).writePast = false) : Guarded t := by
  apply guarded.move id others
  · intro isGuarded other different
    have before := guarded id other different.symm
    grind
  · grind

/-- A padded write that has read and has still to write is listed and counted. -/
theorem NodeInv.counted_of_guarded (inv : NodeInv s) (reads : (s.requests id).guarded = true) :
    (s.requests id).counted = true ∧ id ∈ s.tracked := by
  have fits := inv.fits id
  have listed := inv.listed id
  cases isPc : (s.requests id).pc <;> grind

/-- Whoever gets through to a write without overtaking is clear of all padding that is read. -/
theorem NodeInv.clear_of_not_overtakes (inv : NodeInv s) (fine : s.overtakes id = false)
    (writes : (s.requests id).writesNext = true) (none : s.findConflicting id = none) {other : Nat}
    (different : other ≠ id) (reads : (s.requests other).guarded = true) :
    (s.requests other).req.overlaps (s.requests id).req = false := by
  obtain ⟨counted, member⟩ := inv.counted_of_guarded reads
  apply eq_false_of_ne_true
  intro overlaps
  have waiting := findConflicting_eq_none none member different (by grind) overlaps
  have overtakes : s.overtakes id = true := by
    grind [NodeState.overtakes]
  rw [fine] at overtakes
  cases overtakes

theorem Guarded.waitLocked (guarded : Guarded s) (inv : NodeInv s) (initial : Bool)
    (requests : u.requests = s.requests) (found : u.findConflicting id = s.findConflicting id)
    (fine : initial = false → s.overtakes id = false) : Guarded (u.waitLocked id initial) := by
  unfold NodeState.waitLocked
  split
  · apply guarded.quiet id <;> dsimp <;> grind
  · next none =>
    have clear := @inv.clear_of_not_overtakes _ id
    apply guarded.move id <;> dsimp <;> grind [Guarded]

theorem findConflicting_stopWaiting (s : NodeState) (id : Nat) :
    (s.stopWaiting id).findConflicting id = s.findConflicting id := by
  unfold NodeState.findConflicting
  congr 1
  funext other
  by_cases own : other = id <;> simp [own]

theorem Guarded.wakeWaiters (guarded : Guarded s) (id : Nat) : Guarded (s.wakeWaiters id) := by
  intro a b different
  have before := guarded a b different
  have same (other : Nat) := (s.requests other).wake_same
  dsimp only [NodeState.wakeWaiters]
  split <;> split <;> simpa only [same] using before

theorem Guarded.next (guarded : Guarded s) (inv : NodeInv s) (fine : overtaking s step = false)
    (taken : s.next step = some t) : Guarded t := by
  cases NodeState.next_took taken with
  | @begin id call pc => apply guarded.quiet id <;> dsimp <;> grind
  | @makeSerialising id align pc padded =>
    have fits := inv.fits id
    unfold NodeState.waitLocked
    split <;> apply guarded.quiet id <;> dsimp <;> grind
  | @readCounter id pc =>
    have counter (other : Nat) := @inv.counter_ne_zero _ other
    have counted (other : Nat) := @inv.counted_of_guarded _ other
    apply guarded.move id <;> dsimp <;> grind [Guarded]
  | lockWait pc => exact guarded.waitLocked inv false rfl rfl fun _ => fine
  | @relock id initial pc =>
    apply guarded.waitLocked (u := s.stopWaiting id) inv initial rfl
      (findConflicting_stopWaiting s id)
    grind [overtaking]
  | @driverBegin id pc =>
    -- Padding that is read now: whoever conflicts has to wait.
    have apart := inv.apart id
    have fits := inv.fits id
    apply guarded.move id <;> dsimp <;> grind [Guarded]
  | @driverEnd id skipped pc =>
    apply guarded.quiet id <;> dsimp <;> grind [List.mem_of_mem_tail]
  | @decCounter id pc => apply guarded.quiet id <;> dsimp <;> grind
  | @unlist id pc => apply guarded.quiet id <;> dsimp <;> grind
  | @restart id pc =>
    apply Guarded.wakeWaiters
    apply guarded.quiet id <;> dsimp <;> grind

/-! ### Runs -/

theorem guarded_reached
    (reached : serialisingSystem.ReachedBy (fun s step => overtaking s step = false) s) :
    NodeInv s ∧ Guarded s := by
  apply reached.invariant fun s => NodeInv s ∧ Guarded s
  · rintro s rfl
    exact ⟨nodeInv_start, nofun⟩
  · intro s step t both fine taken
    exact ⟨both.1.next taken, both.2.next both.1 fine taken⟩

theorem not_exclusive_of_overtakes (overtakes : s.overtakes id = true)
    (requests : u.requests = s.requests) (found : u.findConflicting id = s.findConflicting id) :
    ∃ v, (u.waitLocked id false).next (.driverBegin id) = some v ∧ ¬Exclusive v := by
  unfold NodeState.overtakes at overtakes
  simp only [Bool.and_eq_true, List.any_eq_true, decide_eq_true_eq,
    Option.isNone_iff_eq_none] at overtakes
  obtain ⟨⟨writes, none⟩, other, -, ⟨⟨different, reads⟩, overlaps⟩, -⟩ := overtakes
  have waited : u.waitLocked id false = u.setPc id .ready := by
    grind [NodeState.waitLocked]
  rw [waited]
  refine ⟨(u.setPc id .ready).setRequest id (NodeState.inDriver ((u.setPc id .ready).requests id)),
    by simp [NodeState.next], fun exclusive => ?_⟩
  have quiet := exclusive other id different
  simp [requests, different, RequestState.writing, NodeState.inDriver] at quiet
  grind

/-- A step that overtakes is followed by one that breaks exclusion. -/
theorem not_exclusive_of_overtaking (overtakes : overtaking s step = true)
    (taken : s.next step = some t) : ∃ id u, t.next (.driverBegin id) = some u ∧ ¬Exclusive u := by
  cases NodeState.next_took taken with
  | @lockWait id pc => exact ⟨id, not_exclusive_of_overtakes overtakes rfl rfl⟩
  | @relock id initial pc =>
    rw [overtaking, Bool.and_eq_true, decide_eq_true_eq, pc] at overtakes
    cases overtakes.1
    exact ⟨id, not_exclusive_of_overtakes overtakes.2 rfl (findConflicting_stopWaiting s id)⟩
  | _ => cases overtakes

def paddedCall : RequestCall where
  offset := 0
  bytes := 8192
  type := .write
  padded := some 4096
  plan := [.read, .read, .write]

def blockCall : RequestCall where
  offset := 0
  bytes := 4096
  type := .write
  padded := none
  plan := [.write]

/-- The padded write reads its head; the other write is listed. -/
def headRead : List NodeStep :=
  [.begin 0 paddedCall, .makeSerialising 0, .readCounter 0, .lockWait 0, .driverBegin 0,
    .driverEnd 0 0, .begin 1 blockCall]

end QemuGzvm.Block
