import QemuGzvm.VirtioNet.Transmit

/-!
Contract: no packet is left behind in the transmit queue.

Owns:
- the invariant: between handlers, either something is going to look at the ring, or the guest
  will kick for the next entry it checks;
- every step keeps it;
- what follows for states in which nothing is going on.

A handler that finds the ring empty has enabled notifications before it looked, so that an entry
added later is checked later. With an event index, that index has not fallen behind then.
-/

namespace QemuGzvm.VirtioNet

open QemuGzvm.Library QemuGzvm.Util

namespace TxState

variable {net : TxConfig} {s t : TxState} {caller : FlushFor} {elem num : Nat}

/-! ### The invariant -/

/-- Each popped element has been pushed once, or is with the peer. -/
def PushedOnce (s : TxState) : Prop :=
  ∀ elem, s.pushed.count elem + (if s.asyncTx = some elem then 1 else 0) =
    if elem < s.popped then 1 else 0

structure Base (s : TxState) : Prop where
  driver : s.driverOk = true
  checkedLe : s.checked ≤ s.avail
  poppedLe : s.popped ≤ s.avail
  pushes : PushedOnce s
  agrees : s.scheduled = true → s.txWaiting = true
  paired : s.vmRunning = true → s.txWaiting = true → s.scheduled = true

/-- Notifications are enabled, and were when the device last looked. -/
@[mk_iff]
structure Armed (net : TxConfig) (s : TxState) : Prop where
  enabled : s.notification = true
  low : net.eventIdx = true → s.popped ≤ s.availEvent
  high : net.eventIdx = true → s.availEvent ≤ s.avail

/-- The guest will kick when it checks the next entry that the device has not popped. -/
@[mk_iff]
structure Watched (net : TxConfig) (s : TxState) : Prop where
  enabled : s.notification = true
  event : net.eventIdx = true → s.availEvent = s.popped

/-- Something else than a kick makes the device look at the ring. -/
def Engaged (s : TxState) : Prop := s.txWaiting = true ∨ s.asyncTx.isSome = true

/-- Why nothing is left behind, by where the device is. -/
def Attended (net : TxConfig) (s : TxState) : Prop :=
  match s.pc with
  | .idle => Engaged s ∨ (Watched net s ∧ (s.kicked = true ∨ s.checked ≤ s.popped))
  | .flush caller num => (num ≠ 0 → s.asyncTx = none) ∧ (caller ≠ .bhFirst → Armed net s)
  | .rearm => True
  | .drop => Engaged s ∨ Armed net s
  | .aborted => False

structure Inv (net : TxConfig) (s : TxState) : Prop extends Base s where
  attended : Attended net s

/-! ### Steps -/

attribute [local grind] setNotification pop push goTo schedule needsKick flushed onward dropTurn
  setStatus handleTxBh txBh txComplete Engaged Attended FlushRet.value

attribute [local grind =] armed_iff watched_iff

attribute [local grind cases] Base Inv

/-- The element at the head of the ring is popped, and pushed or left with the peer. -/
theorem PushedOnce.pop (pushes : PushedOnce s) (elem : Nat) :
    s.pushed.count elem + (if s.asyncTx = some elem then 1 else 0) +
      (if s.popped = elem then 1 else 0) = if elem < s.popped + 1 then 1 else 0 := by
  have once := pushes elem
  by_cases same : s.popped = elem
  · subst same
    simp [once]
  · rw [if_congr (show elem < s.popped + 1 ↔ elem < s.popped by omega) rfl rfl, ← once, if_neg same]
    rfl

theorem Base.popPush (base : Base s) (more : s.popped ≠ s.avail) :
    Base (s.pop.push s.popped) := by
  refine { base with poppedLe := Nat.lt_of_le_of_ne base.poppedLe more, pushes := fun elem => ?_ }
  have once := base.pushes.pop elem
  change (s.popped :: s.pushed).count elem + (if s.asyncTx = some elem then 1 else 0) =
    if elem < s.popped + 1 then 1 else 0
  rw [List.count_cons]
  simp only [beq_iff_eq] at once ⊢
  omega

theorem Base.popAsync (base : Base s) (more : s.popped ≠ s.avail) (free : s.asyncTx = none) :
    Base { s.pop.setNotification false with asyncTx := some s.popped } := by
  refine { base with poppedLe := Nat.lt_of_le_of_ne base.poppedLe more, pushes := fun elem => ?_ }
  have once := base.pushes.pop elem
  rw [free] at once
  change s.pushed.count elem + (if some s.popped = some elem then 1 else 0) =
    if elem < s.popped + 1 then 1 else 0
  simpa using once

theorem Base.complete (base : Base s) (isAsync : s.asyncTx = some elem) :
    Base { s.push elem with asyncTx := none } := by
  refine { base with pushes := fun other => ?_ }
  have once := base.pushes other
  rw [isAsync] at once
  change (elem :: s.pushed).count other + 0 = if other < s.popped then 1 else 0
  rw [List.count_cons]
  simpa using once

/-- Nothing is popped or pushed: only the schedule and `tx_waiting` matter. -/
theorem Base.quiet (base : Base s) (driver : t.driverOk = s.driverOk) (checked : t.checked ≤ t.avail)
    (avail : s.avail ≤ t.avail) (popped : t.popped = s.popped) (pushed : t.pushed = s.pushed)
    (async : t.asyncTx = s.asyncTx) (agrees : t.scheduled = true → t.txWaiting = true)
    (paired : t.vmRunning = true → t.txWaiting = true → t.scheduled = true) : Base t := by
  refine ⟨driver.trans base.driver, checked, ?_, ?_, agrees, paired⟩
  · rw [popped]
    exact base.poppedLe.trans avail
  · intro elem
    rw [pushed, async, popped]
    exact base.pushes elem

/-- What a flush leaves: an empty ring, or something that will look at it. -/
def Settled (net : TxConfig) (s : TxState) : Prop :=
  Engaged s ∨ (Armed net s ∧ s.popped = s.avail)

theorem Inv.scheduled (base : Base s) : Inv net (s.schedule.goTo .idle) :=
  ⟨{ base with agrees := fun _ => rfl, paired := fun _ _ => rfl }, Or.inl (Or.inl rfl)⟩

theorem Inv.settled (base : Base s) (settled : Settled net s) : Inv net (s.goTo .idle) := by
  refine ⟨{ base with }, ?_⟩
  unfold Settled at settled
  grind

/-- A flush whose caller goes on: the ring is settled, or the caller looks at it again since the
bottom half has a second flush, or since there were packets. -/
theorem Inv.flushed {ret : FlushRet} (base : Base s)
    (outlook : Settled net s ∨ ∃ num, ret = .packets num ∧
      (caller = .bhFirst ∨ (0 < num ∧ net.txBurst ≤ num)))
    (fine : ret ≠ .einval) : Inv net (s.flushed net caller ret) := by
  have quiet : Inv net ((s.setNotification false).schedule.goTo .idle) :=
    Inv.scheduled { base with }
  have waits : Settled net s → Inv net (s.goTo .idle) := Inv.settled base
  have again : Inv net (s.schedule.goTo .idle) := Inv.scheduled base
  have rearms : Inv net (s.goTo .rearm) := ⟨{ base with }, trivial⟩
  unfold TxState.flushed
  cases caller <;> cases ret <;> dsimp only <;> grind

theorem flushed_broken (s : TxState) (caller : FlushFor) (ret : FlushRet) :
    (s.flushed net caller ret).broken = s.broken := by
  cases caller <;> cases ret <;> grind

theorem Inv.onward (base : Base s) (free : s.asyncTx = none)
    (armed : caller ≠ .bhFirst → Armed net s) : Inv net (s.onward net caller num) := by
  unfold TxState.onward
  split
  · next many =>
    exact Inv.flushed base (Or.inr ⟨num + 1, rfl, Or.inr ⟨Nat.succ_pos num, many⟩⟩) nofun
  · exact ⟨{ base with }, fun _ => free, fun other => { armed other with }⟩

theorem Armed.popPush (armed : Armed net s) (more : s.popped ≠ s.avail) (le : s.popped ≤ s.avail) :
    Armed net (s.pop.push s.popped) := by
  constructor <;> grind

section

variable (inv : Inv net s)
include inv

theorem Inv.flushTurn (isPc : s.pc = .flush caller num)
    (outSg : List IoVec) (sent : Bool) :
    (s.flushTurn net caller num outSg sent).broken = true ∨
      Inv net (s.flushTurn net caller num outSg sent) := by
  have base := inv.toBase
  have attended := inv.attended
  unfold Attended at attended
  rw [isPc] at attended
  obtain ⟨later, armed⟩ := attended
  unfold TxState.flushTurn
  rw [base.driver, if_neg (by decide)]
  split
  · next waiting =>
    right
    exact Inv.flushed { base with } (Or.inl (Or.inl (Or.inr waiting.2))) nofun
  · next noAsync =>
    have free : s.asyncTx = none := by
      grind [Option.not_isSome_iff_eq_none.mp]
    split
    · next empty =>
      right
      refine Inv.flushed base ?_ nofun
      by_cases first : caller = .bhFirst
      · exact Or.inr ⟨num, rfl, Or.inl first⟩
      · exact Or.inl (Or.inr ⟨armed first, empty⟩)
    · next more =>
      have onward : Inv net ((s.pop.push s.popped).onward net caller num) :=
        Inv.onward (base.popPush more) free
          fun other => (armed other).popPush more base.poppedLe
      split
      · left
        rw [flushed_broken]
      · exact Or.inr onward
      · split
        · exact Or.inr onward
        · right
          exact Inv.flushed (base.popAsync more free) (Or.inl (Or.inl (Or.inr rfl))) nofun

theorem Inv.dropTurn (isPc : s.pc = .drop) : Inv net s.dropTurn := by
  have base := inv.toBase
  unfold TxState.dropTurn
  split
  · exact ⟨{ base with }, by grind⟩
  · next more => exact ⟨base.popPush more, by grind⟩

theorem Inv.sameRing (ring : t.popped = s.popped)
    (same : t.avail = s.avail ∧ t.checked = s.checked ∧ t.pushed = s.pushed ∧ t.asyncTx = s.asyncTx ∧
      t.driverOk = s.driverOk)
    (agrees : t.scheduled = true → t.txWaiting = true)
    (paired : t.vmRunning = true → t.txWaiting = true → t.scheduled = true)
    (attended : Attended net t) : Inv net t := by
  have base := inv.toBase
  exact ⟨base.quiet same.2.2.2.2 (by grind) (by grind) ring same.2.2.1 same.2.2.2.1 agrees paired,
    attended⟩

theorem Inv.setStatus (isPc : s.pc = .idle) (running up : Bool) :
    Inv net { s with vmRunning := running, linkUp := up }.setStatus := by
  refine inv.sameRing ?_ ?_ ?_ ?_ ?_ <;> grind

theorem Inv.handleTxBh (isPc : s.pc = .idle) : Inv net { s with kicked := false }.handleTxBh := by
  refine inv.sameRing ?_ ?_ ?_ ?_ ?_ <;> grind

theorem Inv.txBh (isPc : s.pc = .idle) (scheduled : s.scheduled = true) :
    Inv net { s with scheduled := false }.txBh := by
  refine inv.sameRing ?_ ?_ ?_ ?_ ?_ <;> grind

theorem Inv.txComplete (isAsync : s.asyncTx = some elem) :
    Inv net (s.txComplete elem) := by
  have base := inv.toBase.complete isAsync
  exact ⟨{ base with }, by grind⟩

theorem Inv.rearm : Inv net ((s.setNotification true).goTo (.flush .bhSecond 0)) := by
  have base := inv.toBase
  exact ⟨{ base with }, by grind⟩

/-- The guest adds an entry, checks whether to kick, or kicks: entries that were watched are
kicked for when they are checked. -/
theorem Inv.guest {avail checked : Nat} {kicked : Bool} (more : s.avail ≤ avail)
    (le : checked ≤ avail) (kept : s.kicked = true → kicked = true)
    (checks : Watched net s → s.checked ≤ s.popped → kicked = true ∨ checked ≤ s.popped) :
    Inv net { s with avail, checked, kicked } := by
  have base := inv.toBase
  have attended := inv.attended
  refine ⟨base.quiet rfl le more rfl rfl rfl base.agrees base.paired, ?_⟩
  unfold Attended at attended ⊢
  cases pc : s.pc <;> simp only [pc] at attended ⊢ <;> grind

/-! ### All steps -/

theorem Inv.next {step : TxStep} (taken : s.next net step = some t) :
    t.broken = true ∨ Inv net t := by
  have checkedLe := inv.checkedLe
  unfold TxState.next at taken
  split at taken
  · cases taken
  · cases step with
    | guestAdd =>
      cases taken
      exact Or.inr (inv.guest (Nat.le_succ _) (Nat.le_succ_of_le checkedLe) id fun _ => .inr)
    | guestCheck =>
      cases taken
      refine Or.inr (inv.guest (Nat.le_refl _) (Nat.le_refl _) (by grind) fun watched below => ?_)
      grind
    | kick =>
      cases taken
      exact Or.inr (inv.guest (Nat.le_refl _) checkedLe (fun _ => rfl) fun _ _ => .inl rfl)
    | handleTx =>
      obtain ⟨ready, isNext⟩ := Option.ite_none_right_eq_some.mp taken
      cases isNext
      exact Or.inr (inv.handleTxBh ready.1)
    | runBh =>
      obtain ⟨ready, isNext⟩ := Option.ite_none_right_eq_some.mp taken
      cases isNext
      exact Or.inr (inv.txBh ready.1 ready.2)
    | txComplete =>
      dsimp only at taken
      split at taken <;> cases taken
      next isAsync => exact Or.inr (inv.txComplete isAsync)
    | setRunning running =>
      obtain ⟨isPc, isNext⟩ := Option.ite_none_right_eq_some.mp taken
      cases isNext
      exact Or.inr (inv.setStatus isPc running s.linkUp)
    | setLink up =>
      obtain ⟨isPc, isNext⟩ := Option.ite_none_right_eq_some.mp taken
      cases isNext
      exact Or.inr (inv.setStatus isPc s.vmRunning up)
    | device outSg sent =>
      dsimp only at taken
      split at taken <;> cases taken
      · next isPc => exact inv.flushTurn isPc outSg sent
      · exact Or.inr inv.rearm
      · next isPc => exact Or.inr (inv.dropTurn isPc)

end

theorem Inv.start : Inv net TxState.start := by
  refine ⟨⟨rfl, Nat.le_refl _, Nat.le_refl _, ?_, nofun, fun _ => nofun⟩, ?_⟩
  · intro elem
    rfl
  · exact Or.inr ⟨⟨rfl, fun _ => rfl⟩, Or.inr (Nat.le_refl _)⟩

theorem Inv.reached (reached : TxReached net s) (working : s.broken = false) : Inv net s := by
  refine (reached.invariant (fun s => s.broken = true ∨ Inv net s) ?_ ?_).resolve_left ?_
  · rintro _ rfl
    exact Or.inr Inv.start
  · intro before step after holds _ taken
    rcases holds with broken | inv
    · change before.next net step = some after at taken
      unfold TxState.next at taken
      rw [if_pos broken] at taken
      cases taken
    · exact inv.next taken
  · rw [working]
    exact Bool.false_ne_true

/-! ### Nothing is left behind -/

/-- Nothing is going on: no handler, no kick on its way, no entry to be checked. -/
structure Quiescent (s : TxState) : Prop where
  idle : s.pc = .idle
  noKick : s.kicked = false
  checked : s.checked = s.avail

def Attends (s : TxState) : Prop :=
  s.vmRunning = true → s.linkUp = true → s.driverOk = true → s.popped < s.avail →
    (s.scheduled = true ∧ s.txWaiting = true) ∨ s.asyncTx.isSome = true

/-- The bottom half is scheduled exactly if `tx_waiting` says so; while the machine is stopped it
may be off the schedule with `tx_waiting` set. -/
def Agrees (s : TxState) : Prop :=
  (s.scheduled = true → s.txWaiting = true) ∧
    (s.vmRunning = true → s.txWaiting = true → s.scheduled = true)

end TxState

theorem plainNet_hostLe : 12 ≤ 12 := Nat.le_refl 12

def plainNet : TxConfig := ⟨256, true, false, 12, 12, plainNet_hostLe⟩

/-- The second buffer is added while the first one is with the peer. -/
def queuedSteps : List TxStep :=
  [.guestAdd, .guestCheck, .handleTx, .runBh, .device [⟨0, 60⟩] false, .guestAdd, .guestCheck]

end QemuGzvm.VirtioNet
