import QemuGzvm.Block.Serialising
import QemuGzvm.Library.WaitFor
import Mathlib.Data.Finset.Card

/-!
Contract: what holds of the tracked requests of a node in every interleaving.

Owns:
- the invariant: the list, the counter and the `waiting_for` pointers agree with where the
  requests are, and no two conflicting requests are both through with waiting;
- that `waiting_for` has no cycles.
-/

namespace QemuGzvm.Block

open QemuGzvm.Library

/-! ### Where a request is -/

/-- Between `QLIST_INSERT_HEAD` and `QLIST_REMOVE`. -/
def RequestPc.isListed : RequestPc → Bool
  | .idle | .restarting | .ended => false
  | _ => true

def RequestPc.waits : RequestPc → Bool
  | .blocked _ | .woken _ => true
  | _ => false

/-- Before it does anything, or through with its driver calls. -/
def RequestPc.outside : RequestPc → Bool
  | .idle | .listed | .ending | .unlisting | .restarting | .ended => true
  | _ => false

namespace RequestState

def counted (r : RequestState) : Bool :=
  r.req.serialising && r.pc.isListed && decide (r.pc ≠ .unlisting)

/-- Through with waiting, as far as it has come: a padded write also before it waits again. -/
def past (r : RequestState) : Bool :=
  match r.pc with
  | .ready | .inDriver | .between => true
  | .toLock => r.padded.isSome
  | _ => false

def writePast (r : RequestState) : Bool :=
  (decide (r.pc = .ready) || decide (r.pc = .inDriver)) && r.writesNext

@[mk_iff] structure Fits (r : RequestState) : Prop where
  serialising : r.req.serialising = (r.padded.isSome && decide (r.pc ≠ .idle ∧ r.pc ≠ .listed))
  hasRead : r.hasRead = true → r.padded.isSome = true
  outside : r.pc.outside = true → r.guarded = false

end RequestState

/-! ### The invariant -/

def NodeState.countSerialising (s : NodeState) : Nat :=
  s.tracked.countP fun id => (s.requests id).counted

structure NodeInv (s : NodeState) : Prop where
  listed : ∀ id, id ∈ s.tracked ↔ (s.requests id).pc.isListed = true
  nodup : s.tracked.Nodup
  fits : ∀ id, (s.requests id).Fits
  waits : ∀ id, (s.waitingFor id).isSome = (s.requests id).pc.waits
  counter : s.serialisingInFlight = s.countSerialising
  /-- Of two that conflict, one has to wait. -/
  apart : ∀ id other, id ≠ other → (s.requests id).past = true → (s.requests other).past = true →
    ((s.requests id).req.serialising || (s.requests other).req.serialising) = true →
    (s.requests id).req.overlaps (s.requests other).req = false
  grow : StampsGrow s.waitingFor s.waitedAt
  latest : ∀ id, s.waitingFor id ≠ none → s.waitedAt id < s.clock

theorem nodeInv_start : NodeInv .start where
  listed := fun _ => ⟨nofun, nofun⟩
  nodup := List.nodup_nil
  fits := fun _ => ⟨rfl, nofun, fun _ => rfl⟩
  waits := fun _ => rfl
  counter := rfl
  apart := nofun
  grow := nofun
  latest := fun _ some => absurd rfl some

/-- Counting when membership and predicate change for one item only. -/
theorem countP_change {α : Type} [DecidableEq α] {l m : List α} (nodupL : l.Nodup) (nodupM : m.Nodup)
    {p q : α → Bool} (a : α) (same : ∀ b, b ≠ a → (b ∈ l ∧ p b ↔ b ∈ m ∧ q b)) :
    l.countP p + (if a ∈ m ∧ q a then 1 else 0) = m.countP q + (if a ∈ l ∧ p a then 1 else 0) := by
  have isCount (k : List α) (nodup : k.Nodup) (r : α → Bool) :
      k.countP r = ((k.filter r).toFinset.erase a).card + if a ∈ k ∧ r a then 1 else 0 := by
    rw [List.countP_eq_length_filter, ← List.toFinset_card_of_nodup (nodup.filter r)]
    grind [Finset.erase_eq_of_notMem, List.mem_toFinset]
  have others : (l.filter p).toFinset.erase a = (m.filter q).toFinset.erase a := by
    ext b
    grind [List.mem_toFinset]
  rw [isCount l nodupL, isCount m nodupM, others]
  omega

/-- One request moves on: what is left to show is about itself. -/
structure NodeMove (s t : NodeState) (id : Nat) : Prop where
  others : ∀ other, other ≠ id → t.requests other = s.requests other ∧
    t.waitingFor other = s.waitingFor other ∧ (other ∈ t.tracked ↔ other ∈ s.tracked)
  listed : id ∈ t.tracked ↔ (t.requests id).pc.isListed = true
  nodup : t.tracked.Nodup
  fits : (t.requests id).Fits
  waits : (t.waitingFor id).isSome = (t.requests id).pc.waits
  counter : t.serialisingInFlight + (if (s.requests id).counted then 1 else 0) =
    s.serialisingInFlight + (if (t.requests id).counted then 1 else 0)
  apart : (t.requests id).past = true → ∀ other, other ≠ id → (s.requests other).past = true →
    ((t.requests id).req.serialising || (s.requests other).req.serialising) = true →
    (t.requests id).req.overlaps (s.requests other).req = false
  grow : StampsGrow t.waitingFor t.waitedAt
  latest : ∀ other, t.waitingFor other ≠ none → t.waitedAt other < t.clock

section Steps

variable {s t u : NodeState} {id : Nat} {other self : Nat}

theorem NodeInv.move (inv : NodeInv s) (id : Nat) (move : NodeMove s t id) : NodeInv t := by
  obtain ⟨others, listed, nodup, fits, waits, counter, apart, grow, latest⟩ := move
  have isListed : ∀ other, other ∈ t.tracked ↔ (t.requests other).pc.isListed = true := by
    grind [NodeInv]
  refine ⟨isListed, nodup, ?_, ?_, ?_, ?_, grow, latest⟩
  · grind [NodeInv]
  · grind [NodeInv]
  · have count := countP_change nodup inv.nodup (p := fun other => (t.requests other).counted)
      (q := fun other => (s.requests other).counted) id (by grind)
    have before := inv.listed id
    have isCounter := inv.counter
    unfold NodeState.countSerialising at *
    grind [RequestState.counted]
  · intro a b different
    have swap := (t.requests a).req.overlaps_comm (t.requests b).req
    grind [NodeInv]

attribute [local grind] RequestPc.isListed RequestPc.waits RequestPc.outside RequestState.counted
  RequestState.past RequestState.guarded NodeState.inDriver NodeState.outOfDriver
  NodeState.afterDriver trackedRequestBegin trackedRequestSetSerialising

attribute [local grind cases] NodeInv

attribute [local grind =] Function.update_apply RequestState.fits_iff

attribute [local simp] NodeState.begun NodeState.setRequest NodeState.setPc
  NodeState.setSerialising NodeState.stopWaiting NodeState.decCounter NodeState.unlist

/-- What a request finds of another one in `bdrv_find_conflicting_request`. -/
theorem findConflicting_eq_none (none : s.findConflicting self = none) (member : other ∈ s.tracked)
    (different : other ≠ self)
    (serialising : ((s.requests other).req.serialising || (s.requests self).req.serialising) = true)
    (overlaps : (s.requests other).req.overlaps (s.requests self).req = true) :
    (s.waitingFor other).isSome = true := by
  have refused := List.find?_eq_none.mp none other member
  rw [decide_eq_true different, serialising, overlaps] at refused
  simpa [Option.isSome_iff_ne_none] using refused

theorem findConflicting_eq_some (found : s.findConflicting self = some other) :
    other ≠ self ∧ s.waitingFor other = none := by
  have fine := List.find?_some found
  simp only [Bool.and_eq_true, decide_eq_true_eq, Option.isNone_iff_eq_none] at fine
  exact ⟨fine.1.1.1, fine.2⟩

/-- A request comes to the loop, in the list and not waiting. -/
structure AtLoop (s u : NodeState) (id : Nat) : Prop where
  others : ∀ other, other ≠ id → u.requests other = s.requests other
  tracked : u.tracked = s.tracked
  waitingFor : ∀ other, u.waitingFor other = if other = id then none else s.waitingFor other
  waitedAt : u.waitedAt = s.waitedAt
  clock : u.clock = s.clock
  member : (s.requests id).pc.isListed = true
  counter : u.serialisingInFlight + (if (s.requests id).counted then 1 else 0) =
    s.serialisingInFlight + (if (u.requests id).req.serialising then 1 else 0)
  fits : ∀ pc : RequestPc, pc.outside = false → ({ u.requests id with pc } : RequestState).Fits

theorem AtLoop.waitLocked (inv : NodeInv s) (atLoop : AtLoop s u id) (initial : Bool) :
    NodeInv (u.waitLocked id initial) := by
  have grow : StampsGrow u.waitingFor u.waitedAt := by
    grind [AtLoop, StampsGrow]
  have latest : ∀ other, u.waitingFor other ≠ none → u.waitedAt other < u.clock := by
    grind [AtLoop]
  unfold NodeState.waitLocked
  split
  · next other found =>
    obtain ⟨different, free⟩ := findConflicting_eq_some found
    have goesOn := atLoop.fits (.blocked initial) rfl
    refine inv.move id ⟨?_, ?_, ?_, ?_, ?_, ?_, ?_, grow.wait free different latest, ?_⟩
    all_goals (dsimp; grind [AtLoop])
  · next none =>
    have apart (other : Nat) (different : other ≠ id) (past : (s.requests other).past = true)
        (serialising : ((u.requests id).req.serialising ||
          (s.requests other).req.serialising) = true) :
        (u.requests id).req.overlaps (s.requests other).req = false := by
      have swap := (u.requests id).req.overlaps_comm (s.requests other).req
      have member : other ∈ u.tracked := by
        grind [AtLoop]
      have waiting := findConflicting_eq_none none member different
      grind [AtLoop]
    refine inv.move id ⟨?_, ?_, ?_, ?_, ?_, ?_, ?_, grow, ?_⟩
    all_goals (dsimp; grind [AtLoop])

theorem NodeInv.free (inv : NodeInv s) (pc : (s.requests id).pc.waits = false) :
    s.waitingFor id = none := by
  rw [← inv.waits id] at pc
  exact Option.isSome_eq_false_iff.mp pc |> Option.isNone_iff_eq_none.mp

/-- While a serialising request is listed and not about to leave, the counter is set. -/
theorem NodeInv.counter_ne_zero (inv : NodeInv s) (counted : (s.requests id).counted = true) :
    s.serialisingInFlight ≠ 0 := by
  rw [inv.counter, NodeState.countSerialising]
  apply Nat.ne_of_gt
  exact List.countP_pos_iff.mpr ⟨id, (inv.listed id).mpr (by grind), counted⟩

theorem RequestState.wake_same (r : RequestState) :
    r.wake.req = r.req ∧ r.wake.pc.isListed = r.pc.isListed ∧ r.wake.pc.waits = r.pc.waits ∧
      r.wake.past = r.past ∧ r.wake.counted = r.counted ∧ r.wake.guarded = r.guarded ∧
      r.wake.writePast = r.writePast ∧ (r.Fits → r.wake.Fits) := by
  unfold RequestState.wake
  split <;> grind [RequestState.writePast]

section

variable (inv : NodeInv s)
include inv

theorem NodeInv.wakeWaiters (id : Nat) : NodeInv (s.wakeWaiters id) := by
  have same (other : Nat) := (s.requests other).wake_same
  have counted : ∀ other, ((s.wakeWaiters id).requests other).counted =
      (s.requests other).counted := by
    grind [NodeState.wakeWaiters]
  refine ⟨?_, inv.nodup, ?_, ?_, ?_, ?_, inv.grow, inv.latest⟩
  case refine_4 =>
    rw [NodeState.countSerialising]
    simp only [counted]
    exact inv.counter
  all_goals grind [NodeState.wakeWaiters]

theorem NodeInv.begun {call : RequestCall} (pc : (s.requests id).pc = .idle) :
    NodeInv (s.begun id call) :=
  inv.move id (by constructor <;> dsimp <;> grind)

theorem NodeInv.makeSerialising {align : Nat} (pc : (s.requests id).pc = .listed)
    (padded : (s.requests id).padded = some align) :
    NodeInv ((s.setSerialising id align).waitLocked id true) := by
  have free := @inv.free _ id
  exact AtLoop.waitLocked inv (by constructor <;> (try dsimp) <;> grind) true

theorem NodeInv.readCounter
    (pc : ((s.requests id).pc = .listed ∧ (s.requests id).padded = none) ∨
      (s.requests id).pc = .between) :
    NodeInv (s.setPc id (if s.serialisingInFlight = 0 then .ready else .toLock)) := by
  have counted (other : Nat) := @inv.counter_ne_zero _ other
  exact inv.move id (by constructor <;> dsimp <;> grind)

theorem NodeInv.driverBegin (pc : (s.requests id).pc = .ready) :
    NodeInv (s.setRequest id (NodeState.inDriver (s.requests id))) :=
  inv.move id (by constructor <;> dsimp <;> grind)

theorem NodeInv.driverEnd (pc : (s.requests id).pc = .inDriver) (skipped : Nat) :
    NodeInv (s.setRequest id (NodeState.outOfDriver (s.requests id) skipped)) :=
  inv.move id (by constructor <;> dsimp <;> grind)

theorem NodeInv.decCounter (pc : (s.requests id).pc = .ending) : NodeInv (s.decCounter id) := by
  have counted := @inv.counter_ne_zero _ id
  exact inv.move id (by constructor <;> dsimp <;> grind)

theorem NodeInv.unlist (pc : (s.requests id).pc = .unlisting) : NodeInv (s.unlist id) :=
  inv.move id (by constructor <;> dsimp <;> grind)

theorem NodeInv.next {step : NodeStep} (taken : s.next step = some t) : NodeInv t := by
  cases NodeState.next_took taken with
  | begin pc => exact inv.begun pc
  | makeSerialising pc padded => exact inv.makeSerialising pc padded
  | readCounter pc => exact inv.readCounter pc
  | @lockWait id pc =>
    have free := @inv.free _ id
    exact AtLoop.waitLocked inv (by constructor <;> grind) false
  | @relock id initial pc =>
    exact AtLoop.waitLocked inv (by constructor <;> (try dsimp) <;> grind) initial
  | driverBegin pc => exact inv.driverBegin pc
  | driverEnd pc => exact inv.driverEnd pc _
  | decCounter pc => exact inv.decCounter pc
  | unlist pc => exact inv.unlist pc
  | @restart id pc =>
    apply NodeInv.wakeWaiters
    exact inv.move id (by constructor <;> dsimp <;> grind)

end

end Steps

end QemuGzvm.Block
