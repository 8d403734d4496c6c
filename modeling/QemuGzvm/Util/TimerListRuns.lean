import QemuGzvm.Util.TimerList

/-!
Contract: what holds of a list of timers in every run.

Owns:
- the invariant of the list (sorted, each armed timer once, equal deadlines in the order of their
  armings, each arming run at most once), kept by every step;
- what one step does: which timers the loop runs, and when `timerlist_rearm` is called;
- the order of equal deadlines that a negative time breaks.
-/

namespace QemuGzvm.Util

open QemuGzvm.Library

namespace TimerState

variable {T : Type} [DecidableEq T]

structure Listed (s : TimerState T) : Prop where
  sorted : s.active.Pairwise fun a b => s.expireTime a ≤ s.expireTime b
  once : s.active.Nodup
  armed : ∀ t, t ∈ s.active ↔ s.expireTime t ≠ -1

/-- Of two timers with one deadline, the first in the list was armed first or with a negative
time. -/
def InOrderUnlessOverdue (s : TimerState T) : Prop :=
  s.active.Pairwise fun a b =>
    s.expireTime a = s.expireTime b → s.arming a < s.arming b ∨ s.overdue a = true

structure Inv (s : TimerState T) : Prop extends Listed s where
  nonneg : ∀ t ∈ s.active, 0 ≤ s.expireTime t
  inOrder : s.InOrderUnlessOverdue
  counted : ∀ t, s.arming t ≤ s.armings
  firedOnce : s.fired.Nodup
  firedOld : ∀ run ∈ s.fired,
    run.2 ≤ s.arming run.1 ∧ (run.1 ∈ s.active → run.2 < s.arming run.1)

omit [DecidableEq T] in
theorem inv_start (clock : Int) : (start clock : TimerState T).Inv where
  sorted := .nil
  once := .nil
  armed := by simp [start]
  nonneg := by simp [start]
  inOrder := .nil
  counted := fun _ => Nat.le_refl _
  firedOnce := .nil
  firedOld := by simp [start]

variable {s : TimerState T} {timer : T} {time : Int}

/-! ### The operations -/

variable {t : T} {s' : TimerState T} {step : TimerStep T}

theorem mem_timerDelLocked (inv : s.Inv) :
    t ∈ (s.timerDelLocked timer).active ↔ t ≠ timer ∧ t ∈ s.active :=
  inv.once.mem_erase_iff

theorem timerDelLocked_expireTime (other : t ≠ timer) :
    (s.timerDelLocked timer).expireTime t = s.expireTime t :=
  Function.update_of_ne other _ _

/-- On a part of the list without the timer, a relation between deadlines does not see the
timer's. -/
theorem pairwise_update {value : Int} {active : List T} {R : T → T → Int → Int → Prop}
    (pairs : active.Pairwise fun a b => R a b (s.expireTime a) (s.expireTime b))
    (without : timer ∉ active) :
    active.Pairwise fun a b => R a b (Function.update s.expireTime timer value a)
      (Function.update s.expireTime timer value b) := by
  refine pairs.imp_of_mem ?_
  intro a b memberA memberB related
  have otherA : a ≠ timer := fun same => without (same ▸ memberA)
  have otherB : b ≠ timer := fun same => without (same ▸ memberB)
  rwa [Function.update_of_ne otherA, Function.update_of_ne otherB]

theorem Inv.timerDelLocked (inv : s.Inv) (timer : T) : (s.timerDelLocked timer).Inv := by
  have without : timer ∉ s.active.erase timer := inv.once.not_mem_erase
  have part : (s.active.erase timer).Sublist s.active := List.erase_sublist
  refine ⟨⟨?_, inv.once.erase timer, ?_⟩, ?_, ?_, inv.counted, inv.firedOnce, ?_⟩
  · exact pairwise_update (R := fun _ _ x y => x ≤ y) (inv.sorted.sublist part) without
  · intro t
    rw [mem_timerDelLocked inv]
    by_cases same : t = timer
    · simp [same, TimerState.timerDelLocked]
    · rw [timerDelLocked_expireTime same, ← inv.armed t]
      simp [same]
  · grind [Inv, mem_timerDelLocked, timerDelLocked_expireTime]
  · exact pairwise_update (R := fun a b x y => x = y → s.arming a < s.arming b ∨ s.overdue a = true)
      (inv.inOrder.sublist part) without
  · intro run member
    refine ⟨(inv.firedOld run member).1, fun queued => ?_⟩
    exact (inv.firedOld run member).2 (part.subset queued)

theorem mem_timerModNsLocked :
    t ∈ (s.timerModNsLocked timer time).active ↔ t = timer ∨ t ∈ s.active :=
  (insertTimer_perm s.active).mem_iff.trans List.mem_cons

theorem timerModNsLocked_expireTime_self :
    (s.timerModNsLocked timer time).expireTime timer = max time 0 :=
  Function.update_self _ _ _

theorem timerModNsLocked_expireTime (other : t ≠ timer) :
    (s.timerModNsLocked timer time).expireTime t = s.expireTime t :=
  Function.update_of_ne other _ _

theorem timerModNsLocked_arming_self :
    (s.timerModNsLocked timer time).arming timer = s.armings + 1 :=
  Function.update_self _ _ _

theorem timerModNsLocked_arming (other : t ≠ timer) :
    (s.timerModNsLocked timer time).arming t = s.arming t :=
  Function.update_of_ne other _ _

section

variable (inv : s.Inv)
include inv

/-- A relation between the timers holds of the new list if it holds of the old one, and between
its timers and the new one. -/
theorem Inv.insert_pairwise {R : T → T → Prop}
    (before : s.active.Pairwise R)
    (earlier : ∀ t ∈ s.active, s.expireTime t ≤ time → R t timer)
    (later : ∀ t ∈ s.active, time < s.expireTime t → R timer t) :
    (s.timerModNsLocked timer time).active.Pairwise R :=
  insertTimer_pairwise before inv.sorted earlier later

theorem Inv.sorted_timerModNsLocked (idle : timer ∉ s.active) :
    (s.timerModNsLocked timer time).active.Pairwise fun a b =>
      (s.timerModNsLocked timer time).expireTime a ≤
        (s.timerModNsLocked timer time).expireTime b := by
  apply inv.insert_pairwise
  · exact pairwise_update (R := fun _ _ x y => x ≤ y) inv.sorted idle
  · intro t member expired
    have other : t ≠ timer := fun same => idle (same ▸ member)
    rw [timerModNsLocked_expireTime other, timerModNsLocked_expireTime_self]
    omega
  · intro t member notExpired
    have other : t ≠ timer := fun same => idle (same ▸ member)
    have nonneg := inv.nonneg t member
    rw [timerModNsLocked_expireTime other, timerModNsLocked_expireTime_self]
    omega

theorem Inv.inOrder_timerModNsLocked (idle : timer ∉ s.active) :
    (s.timerModNsLocked timer time).InOrderUnlessOverdue := by
  apply inv.insert_pairwise
  · refine inv.inOrder.imp_of_mem ?_
    intro a b memberA memberB related
    have otherA : a ≠ timer := fun same => idle (same ▸ memberA)
    have otherB : b ≠ timer := fun same => idle (same ▸ memberB)
    rw [timerModNsLocked_expireTime otherA, timerModNsLocked_expireTime otherB,
      timerModNsLocked_arming otherA, timerModNsLocked_arming otherB]
    intro same
    rw [show (s.timerModNsLocked timer time).overdue a = s.overdue a from
      Function.update_of_ne otherA _ _]
    exact related same
  · intro t member expired sameTime
    have other : t ≠ timer := fun same => idle (same ▸ member)
    have counted := inv.counted t
    left
    rw [timerModNsLocked_arming other, timerModNsLocked_arming_self]
    omega
  · intro t member notExpired sameTime
    have other : t ≠ timer := fun same => idle (same ▸ member)
    rw [timerModNsLocked_expireTime other, timerModNsLocked_expireTime_self] at sameTime
    -- the place was found by the time given, the deadline is at least zero
    have negative : time < 0 := by omega
    right
    rw [show (s.timerModNsLocked timer time).overdue timer = decide (time < 0) from
      Function.update_self _ _ _]
    exact decide_eq_true negative

theorem Inv.timerModNsLocked (idle : timer ∉ s.active) (time : Int) :
    (s.timerModNsLocked timer time).Inv := by
  refine ⟨⟨inv.sorted_timerModNsLocked idle, ?_, ?_⟩, ?_, inv.inOrder_timerModNsLocked idle, ?_,
    inv.firedOnce, ?_⟩
  · exact (insertTimer_perm s.active).nodup_iff.mpr (List.nodup_cons.mpr ⟨idle, inv.once⟩)
  · intro t
    rw [mem_timerModNsLocked]
    by_cases same : t = timer
    · rw [same, timerModNsLocked_expireTime_self]
      simp only [true_or, true_iff]
      omega
    · rw [timerModNsLocked_expireTime same, ← inv.armed t]
      simp [same]
  · intro t member
    by_cases same : t = timer
    · rw [same, timerModNsLocked_expireTime_self]
      omega
    · rw [timerModNsLocked_expireTime same]
      exact inv.nonneg t ((mem_timerModNsLocked.mp member).resolve_left same)
  · intro t
    by_cases same : t = timer
    · rw [same, timerModNsLocked_arming_self]
      exact Nat.le_refl _
    · rw [timerModNsLocked_arming same]
      exact Nat.le_succ_of_le (inv.counted t)
  · intro run member
    have old := inv.firedOld run member
    have counted := inv.counted run.1
    by_cases same : run.1 = timer
    · rw [same, timerModNsLocked_arming_self]
      omega
    · rw [timerModNsLocked_arming same, mem_timerModNsLocked]
      exact ⟨old.1, fun queued => old.2 (queued.resolve_left same)⟩

theorem Inv.not_mem_timerDelLocked : timer ∉ (s.timerDelLocked timer).active :=
  inv.once.not_mem_erase

theorem Inv.timerModNs (timer : T) (time : Int) : (s.timerModNs timer time).Inv :=
  (inv.timerDelLocked timer).timerModNsLocked inv.not_mem_timerDelLocked time

theorem Inv.fire {rest : List T} (isActive : s.active = timer :: rest)
    (run : TimerRun T) (runs : List (TimerRun T)) : (s.fire timer rest run runs).Inv := by
  have deleted := inv.timerDelLocked timer
  have isRest : s.active.erase timer = rest := by rw [isActive, List.erase_cons_head]
  have idle : timer ∉ rest := isRest ▸ inv.not_mem_timerDelLocked
  have listed : (s.fire timer rest run runs).active = (s.timerDelLocked timer).active :=
    isRest.symm
  have unfired : ∀ old ∈ s.fired, old.1 = timer → old.2 < s.arming timer := by
    grind [Inv]
  refine ⟨⟨?_, ?_, ?_⟩, ?_, ?_, inv.counted, ?_, ?_⟩
  · rw [listed]
    exact deleted.sorted
  · rw [listed]
    exact deleted.once
  · rw [listed]
    exact deleted.armed
  · rw [listed]
    exact deleted.nonneg
  · unfold InOrderUnlessOverdue
    rw [listed]
    exact deleted.inOrder
  · refine List.nodup_cons.mpr ⟨fun member => ?_, inv.firedOnce⟩
    exact absurd (unfired _ member rfl) (Nat.lt_irrefl _)
  · intro old member
    rcases List.mem_cons.mp member with rfl | member
    · exact ⟨Nat.le_refl _, fun queued => absurd queued idle⟩
    · rw [listed]
      exact deleted.firedOld old member

end

/-! ### One turn of the loop -/

theorem loop_cases (stepped : s.loop = some s') :
    (∃ now runs timer rest, s.runs = ⟨now, none⟩ :: runs ∧ s.active = timer :: rest ∧
      s.expireTime timer ≤ now ∧ s' = s.fire timer rest ⟨now, none⟩ runs) ∨
    ∃ now runs, s.runs = ⟨now, none⟩ :: runs ∧
      (∀ timer, s.active.head? = some timer → now < s.expireTime timer) ∧
      s' = { s with runs := runs } := by
  grind [loop, timerExpiredNs, Option.some.injEq]

/-- What a step can do: to arm or to delete a timer, to run the first one, or to leave the list. -/
inductive Effect (s : TimerState T) : TimerStep T → TimerState T → Prop
  | rearm {label} (timer : T) (time : Int) : Effect s label (s.timerModNs timer time)
  | arm {label timer} (idle : timer ∉ s.active) (time : Int) :
    Effect s label (s.timerModNsLocked timer time)
  | del {label} (timer : T) : Effect s label (s.timerDelLocked timer)
  | fire {timer rest} (isActive : s.active = timer :: rest) (run : TimerRun T)
    (runs : List (TimerRun T)) : Effect s .loop (s.fire timer rest run runs)
  | quiet {label} (enabled : Bool) (clock : Int) (runs : List (TimerRun T)) :
    Effect s label { s with enabled, clock, runs }

theorem Inv.effect (inv : s.Inv) (stepped : s.next step = some s') : s.Effect step s' := by
  cases step with
  | modNs timer time =>
    cases stepped
    exact .rearm timer time
  | modAnticipateNs timer time =>
    cases stepped
    unfold timerModAnticipateNs
    split_ifs with sooner armed
    · exact .rearm timer time
    · exact .arm (fun member => armed ((inv.armed timer).mp member)) time
    · exact .quiet _ _ _
  | del timer =>
    cases stepped
    exact .del timer
  | runTimers =>
    cases stepped
    unfold timerlistRunTimers
    split_ifs
    · exact .quiet _ _ _
    · exact .quiet _ _ _
  | loop =>
    rcases loop_cases stepped with
      ⟨now, runs, timer, rest, -, isActive, -, rfl⟩ | ⟨now, runs, -, -, rfl⟩
    · exact .fire isActive _ runs
    · exact .quiet _ _ _
  | callbackDone =>
    simp only [next] at stepped
    split at stepped
    · cases stepped
      exact .quiet _ _ _
    · cases stepped
  | tick ns =>
    cases stepped
    exact .quiet _ _ _
  | enable enabled =>
    cases stepped
    exact .quiet _ _ _

theorem inv_next (stepped : s.next step = some s') (inv : s.Inv) : s'.Inv := by
  cases inv.effect stepped with
  | rearm timer time => exact inv.timerModNs timer time
  | arm idle time => exact inv.timerModNsLocked idle time
  | del timer => exact inv.timerDelLocked timer
  | fire isActive run runs => exact inv.fire isActive run runs
  | quiet => exact { inv with }

/-! ### What one step does -/

def earliest (s : TimerState T) : Option Int := s.active.head?.map s.expireTime

/-- The earliest deadline got earlier, or there is one where there was none. -/
def Sooner (s s' : TimerState T) : Prop :=
  ∃ deadline ∈ s'.earliest, ∀ before ∈ s.earliest, deadline < before

/-- What a step does about running timers and about `timerlist_rearm`. -/
structure Runs (s : TimerState T) (step : TimerStep T) (s' : TimerState T) : Prop where
  reads : step = .runTimers → s.active ≠ [] → s.enabled = true →
    s'.runs = ⟨s.clock, none⟩ :: s.runs
  /-- The timer at the head is run if it is due then, before all others of the list. -/
  due : step = .loop → ∀ now runs, s.runs = ⟨now, none⟩ :: runs → ∀ timer rest,
    s.active = timer :: rest → s.expireTime timer ≤ now →
      s'.fired = (timer, s.arming timer) :: s.fired ∧ s'.expireTime timer = -1 ∧
      s'.active = rest ∧ s'.runs = ⟨now, some timer⟩ :: runs ∧
      ∀ other ∈ rest, s.expireTime timer ≤ s.expireTime other ∧
        (s.expireTime timer = s.expireTime other →
          s.arming timer < s.arming other ∨ s.overdue timer = true)
  /-- Otherwise the loop ends. -/
  notDue : step = .loop → ∀ now runs, s.runs = ⟨now, none⟩ :: runs →
    (∀ timer, s.active.head? = some timer → now < s.expireTime timer) →
      s'.fired = s.fired ∧ s'.runs = runs
  /-- After a callback the loop goes on with the time it read. -/
  returns : step = .callbackDone → ∀ now timer runs, s.runs = ⟨now, some timer⟩ :: runs →
    s'.runs = ⟨now, none⟩ :: runs
  fires : step ≠ .loop → s'.fired = s.fired
  rearms : s.Sooner s' → s.rearms < s'.rearms

omit [DecidableEq T] in
/-- If the first timer was in the list with that deadline, the earliest deadline did not get
earlier. -/
theorem Listed.not_sooner (listed : s.Listed)
    (first : ∀ t, s'.active.head? = some t → t ∈ s.active ∧ s'.expireTime t = s.expireTime t) :
    ¬s.Sooner s' := by
  rintro ⟨deadline, isDeadline, sooner⟩
  obtain ⟨t, isFirst, rfl⟩ := Option.map_eq_some_iff.mp isDeadline
  obtain ⟨member, same⟩ := first t isFirst
  cases isActive : s.active with
  | nil =>
    rw [isActive] at member
    cases member
  | cons head rest =>
    have below : s'.expireTime t < s.expireTime head := by
      apply sooner
      rw [earliest, isActive]
      rfl
    have sorted := listed.sorted
    rw [isActive, List.pairwise_cons] at sorted
    rw [isActive] at member
    rcases List.mem_cons.mp member with rfl | later
    · omega
    · have order := sorted.1 t later
      omega

theorem head?_timerModNsLocked (behind : s.putsInFront time = false)
    (isFirst : (s.timerModNsLocked timer time).active.head? = some t) :
    s.active.head? = some t := by
  cases isActive : s.active with
  | nil => simp [putsInFront, isActive] at behind
  | cons head rest =>
    grind [putsInFront, TimerState.timerModNsLocked, insertTimer]

theorem rearms_timerModNsLocked (idle : timer ∉ s.active)
    {before : TimerState T} (listed : before.Listed) (same : before.rearms = s.rearms)
    (kept : ∀ t ∈ s.active, t ∈ before.active ∧ s.expireTime t = before.expireTime t)
    (sooner : before.Sooner (s.timerModNsLocked timer time)) :
    before.rearms < (s.timerModNsLocked timer time).rearms := by
  cases inFront : s.putsInFront time with
  | true =>
    rw [same]
    simp [TimerState.timerModNsLocked, inFront]
  | false =>
    refine absurd sooner (listed.not_sooner fun t isFirst => ?_)
    have member : t ∈ s.active :=
      List.mem_of_head? (head?_timerModNsLocked inFront isFirst)
    have other : t ≠ timer := fun equal => idle (equal ▸ member)
    rw [timerModNsLocked_expireTime other]
    exact kept t member

/-- The earliest deadline gets earlier by the operations that arm a timer only. -/
theorem Inv.rearms_next (inv : s.Inv) (stepped : s.next step = some s') (sooner : s.Sooner s') :
    s.rearms < s'.rearms := by
  have deleted : ∀ timer, ∀ t ∈ (s.timerDelLocked timer).active,
      t ∈ s.active ∧ (s.timerDelLocked timer).expireTime t = s.expireTime t := by
    intro timer t member
    rw [mem_timerDelLocked inv] at member
    exact ⟨member.2, timerDelLocked_expireTime member.1⟩
  cases inv.effect stepped with
  | rearm timer time =>
    exact rearms_timerModNsLocked inv.not_mem_timerDelLocked inv.toListed rfl (deleted timer) sooner
  | arm idle time =>
    exact rearms_timerModNsLocked idle inv.toListed rfl (fun t member => ⟨member, rfl⟩) sooner
  | del timer =>
    exact absurd sooner
      (inv.not_sooner fun t isFirst => deleted timer t (List.mem_of_head? isFirst))
  | fire isActive run runs =>
    refine absurd sooner (inv.not_sooner fun t isFirst => deleted _ t ?_)
    rw [TimerState.timerDelLocked, isActive, List.erase_cons_head]
    exact List.mem_of_head? isFirst
  | quiet =>
    exact absurd sooner (inv.not_sooner fun t isFirst => ⟨List.mem_of_head? isFirst, rfl⟩)

theorem Inv.fired_next (inv : s.Inv) (stepped : s.next step = some s') (notLoop : step ≠ .loop) :
    s'.fired = s.fired := by
  cases inv.effect stepped with
  | fire => exact absurd rfl notLoop
  | rearm | arm | del | quiet => rfl

theorem Inv.runs_next (inv : s.Inv) (stepped : s.next step = some s') : s.Runs step s' where
  reads := by
    rintro rfl nonempty enabled
    cases stepped
    simp [timerlistRunTimers, nonempty, enabled]
  due := by
    rintro rfl now runs isRuns timer rest isActive due
    have expired : timerExpiredNs s.expireTime now timer = true := decide_eq_true due
    simp only [next, loop, isRuns, isActive, expired, if_true, Option.some.injEq] at stepped
    have sorted := inv.sorted
    have inOrder := inv.inOrder
    unfold InOrderUnlessOverdue at inOrder
    rw [isActive, List.pairwise_cons] at sorted inOrder
    rw [← stepped]
    exact ⟨rfl, Function.update_self _ _ _, rfl, rfl,
      fun other member => ⟨sorted.1 other member, inOrder.1 other member⟩⟩
  notDue := by
    rintro rfl now runs isRuns notDue
    rcases loop_cases stepped with
      ⟨now', runs', timer, rest, isRuns', isActive, due, rfl⟩ | ⟨now', runs', isRuns', -, rfl⟩
    · grind
    · rw [isRuns', List.cons.injEq] at isRuns
      exact ⟨rfl, isRuns.2⟩
  returns := by
    rintro rfl now timer runs isRuns
    simp only [next, isRuns, Option.some.injEq] at stepped
    rw [← stepped]
  fires := inv.fired_next stepped
  rearms := inv.rearms_next stepped

end TimerState

/-! ### Every run -/

theorem TimerState.inv_reachedBy {T : Type} [DecidableEq T] {clock : Int} {s : TimerState T}
    (reached : (timerSystem T clock).ReachedBy (fun _ _ => True) s) : s.Inv := by
  refine reached.invariant TimerState.Inv ?_ ?_
  · rintro _ rfl
    exact TimerState.inv_start clock
  · intro s step s' inv _ stepped
    exact TimerState.inv_next stepped inv

/-- In every run the list is sorted, holds each armed timer once and has equal deadlines in the
order of their armings, those armed with a negative time apart; no arming is run twice; and each
step runs the timers that are due, in the list's order, and calls `timerlist_rearm` when the
earliest deadline gets earlier. -/
theorem timer_list_safe {T : Type} [DecidableEq T] {clock : Int} {s : TimerState T}
    (reached : (timerSystem T clock).ReachedBy (fun _ _ => True) s) :
    s.Listed ∧ s.InOrderUnlessOverdue ∧ s.fired.Nodup ∧
      ∀ step s', s.next step = some s' → s.Runs step s' := by
  have inv := TimerState.inv_reachedBy reached
  exact ⟨inv.toListed, inv.inOrder, inv.firedOnce, fun step s' stepped => inv.runs_next stepped⟩

/-- Two timers armed at time zero, and a third at five. -/
theorem timer_list_safe_three :
    ∃ s : TimerState (Fin 3), s.active = [0, 1, 2] ∧ s.Listed ∧ s.InOrderUnlessOverdue ∧
      s.fired.Nodup ∧ ∀ step s', s.next step = some s' → s.Runs step s' := by
  obtain ⟨s, reached, active⟩ : ∃ s, (timerSystem (Fin 3) 0).ReachedBy (fun _ _ => True) s ∧
      s.active = [0, 1, 2] :=
    LabelledSystem.exists_reachedBy [.modNs 2 5, .modNs 0 0, .modNs 1 0] (by decide +kernel)
  exact ⟨s, active, timer_list_safe reached⟩

/-- A timer armed at zero, then one with a negative time: the second has the same deadline, comes
before the first and is run before it. -/
theorem timer_list_negative_first :
    ∃ s : TimerState Bool, (timerSystem Bool 0).ReachedBy (fun _ _ => True) s ∧
      s.active = [true, false] ∧ s.expireTime false = 0 ∧ s.expireTime true = 0 ∧
      s.arming false < s.arming true ∧
      ∃ s', (timerSystem Bool 0).ReachedBy (fun _ _ => True) s' ∧
        s'.fired = [(true, s.arming true)] ∧ s'.active = [false] := by
  obtain ⟨s, reached, active, timeFalse, timeTrue, armingFalse, armingTrue⟩ :
      ∃ s, (timerSystem Bool 0).ReachedBy (fun _ _ => True) s ∧ s.active = [true, false] ∧
        s.expireTime false = 0 ∧ s.expireTime true = 0 ∧ s.arming false = 1 ∧ s.arming true = 2 :=
    LabelledSystem.exists_reachedBy [.modNs false 0, .modNs true (-5)] (by decide +kernel)
  refine ⟨s, reached, active, timeFalse, timeTrue, ?_, ?_⟩
  · rw [armingFalse, armingTrue]
    exact Nat.lt_succ_self 1
  · rw [armingTrue]
    exact LabelledSystem.exists_reachedBy [.modNs false 0, .modNs true (-5), .runTimers, .loop]
      (by decide +kernel)

end QemuGzvm.Util
