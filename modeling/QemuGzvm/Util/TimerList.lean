import QemuGzvm.Library.Transition
import Mathlib.Data.List.Nodup
import Mathlib.Data.List.TakeWhile

/-!
Contract: a list of timers (`timer_mod_ns`, `timer_mod_anticipate_ns`, `timer_del` and
`timerlist_run_timers` of `util/qemu-timer.c`).

Owns:
- the active list, with the loop that finds a timer's place in it;
- the steps: an operation under the list's lock, one turn of the loop that runs timers, the return
  of a callback, and the clock going on.

A callback is whatever happens between the step that starts it and the one that ends it:
operations on any timer, and further calls of `timerlist_run_timers`. Operations of other threads
may come in at any time. Notes are kept of when each timer was armed, whether with a negative
time, and of what was run.
-/

namespace QemuGzvm.Util

open QemuGzvm.Library

/-- A call of `timerlist_run_timers`: the time it read, and the timer whose callback it is in. -/
structure TimerRun (T : Type) where
  currentTime : Int
  callback : Option T
deriving DecidableEq

structure TimerState (T : Type) where
  active : List T
  expireTime : T → Int
  /-- `clock->enabled`, and what `qemu_clock_get_ns` returns. -/
  enabled : Bool
  clock : Int
  /-- The calls of `timerlist_run_timers` in progress, the innermost first. -/
  runs : List (TimerRun T)
  rearms : Nat
  /-- How many armings there were, and the number of a timer's last one. -/
  armings : Nat
  arming : T → Nat
  /-- The last arming was with a negative time. -/
  overdue : T → Bool
  /-- The timers that were run, by their armings, the latest first. -/
  fired : List (T × Nat)

inductive TimerStep (T : Type) where
  | modNs (timer : T) (expireTime : Int)
  | modAnticipateNs (timer : T) (expireTime : Int)
  | del (timer : T)
  /-- `timerlist_run_timers`, up to its loop. -/
  | runTimers
  /-- One turn of the loop, up to the callback. -/
  | loop
  | callbackDone
  | tick (ns : Nat)
  | enable (enabled : Bool)
deriving DecidableEq

section Insert

variable {T : Type} (expireTime : T → Int) (time : Int) (timer : T)

def timerExpiredNs (t : T) : Bool := expireTime t ≤ time

def insertTimer : List T → List T
  | [] => [timer]
  | t :: rest =>
    if timerExpiredNs expireTime time t then t :: insertTimer rest else timer :: t :: rest

end Insert

namespace TimerState

variable {T : Type} [DecidableEq T]

def start (clock : Int) : TimerState T where
  active := []
  expireTime := fun _ => -1
  enabled := true
  clock := clock
  runs := []
  rearms := 0
  armings := 0
  arming := fun _ => 0
  overdue := fun _ => false
  fired := []

def timerDelLocked (s : TimerState T) (timer : T) : TimerState T :=
  { s with
    expireTime := Function.update s.expireTime timer (-1)
    active := s.active.erase timer }

/-- What `timer_mod_ns_locked` returns: the timer is put in front. -/
def putsInFront (s : TimerState T) (time : Int) : Bool :=
  (s.active.head?.all fun t => !timerExpiredNs s.expireTime time t)

/-- `timer_mod_ns_locked`, and `timerlist_rearm` after it. -/
def timerModNsLocked (s : TimerState T) (timer : T) (time : Int) : TimerState T :=
  { s with
    active := insertTimer s.expireTime time timer s.active
    expireTime := Function.update s.expireTime timer (max time 0)
    rearms := if s.putsInFront time then s.rearms + 1 else s.rearms
    armings := s.armings + 1
    arming := Function.update s.arming timer (s.armings + 1)
    overdue := Function.update s.overdue timer (time < 0) }

def timerModNs (s : TimerState T) (timer : T) (time : Int) : TimerState T :=
  (s.timerDelLocked timer).timerModNsLocked timer time

def timerModAnticipateNs (s : TimerState T) (timer : T) (time : Int) : TimerState T :=
  if s.expireTime timer = -1 ∨ time < s.expireTime timer then
    if s.expireTime timer ≠ -1 then (s.timerDelLocked timer).timerModNsLocked timer time
    else s.timerModNsLocked timer time
  else s

def timerlistRunTimers (s : TimerState T) : TimerState T :=
  if s.active = [] ∨ ¬s.enabled then s else { s with runs := ⟨s.clock, none⟩ :: s.runs }

def fire (s : TimerState T) (timer : T) (rest : List T) (run : TimerRun T)
    (runs : List (TimerRun T)) : TimerState T :=
  { s with
    active := rest
    expireTime := Function.update s.expireTime timer (-1)
    runs := { run with callback := some timer } :: runs
    fired := (timer, s.arming timer) :: s.fired }

def loop (s : TimerState T) : Option (TimerState T) :=
  match s.runs with
  | ⟨now, none⟩ :: runs =>
    match s.active with
    | [] => some { s with runs := runs }
    | timer :: rest =>
      if timerExpiredNs s.expireTime now timer then some (s.fire timer rest ⟨now, none⟩ runs)
      else some { s with runs := runs }
  | _ => none

def next (s : TimerState T) : TimerStep T → Option (TimerState T)
  | .modNs timer time => some (s.timerModNs timer time)
  | .modAnticipateNs timer time => some (s.timerModAnticipateNs timer time)
  | .del timer => some (s.timerDelLocked timer)
  | .runTimers => some s.timerlistRunTimers
  | .loop => s.loop
  | .callbackDone =>
    match s.runs with
    | ⟨now, some _⟩ :: runs => some { s with runs := ⟨now, none⟩ :: runs }
    | _ => none
  | .tick ns => some { s with clock := s.clock + ns }
  | .enable enabled => some { s with enabled := enabled }

end TimerState

def timerSystem (T : Type) [DecidableEq T] (clock : Int) :
    LabelledSystem (TimerState T) (TimerStep T) :=
  .ofNext (.start clock) TimerState.next

/-! ### Inserting -/

section Insert

variable {T : Type} {expireTime : T → Int} {time : Int} {timer : T}

theorem insertTimer_eq (active : List T) :
    insertTimer expireTime time timer active =
      active.takeWhile (timerExpiredNs expireTime time) ++
        timer :: active.dropWhile (timerExpiredNs expireTime time) := by
  induction active with
  | nil => rfl
  | cons t rest ih =>
    by_cases expired : timerExpiredNs expireTime time t = true
    · rw [insertTimer, if_pos expired, ih, List.takeWhile_cons_of_pos expired,
        List.dropWhile_cons_of_pos expired, List.cons_append]
    · rw [insertTimer, if_neg expired, List.takeWhile_cons_of_neg expired,
        List.dropWhile_cons_of_neg expired, List.nil_append]

theorem insertTimer_perm (active : List T) :
    (insertTimer expireTime time timer active).Perm (timer :: active) := by
  rw [insertTimer_eq]
  refine List.perm_middle.trans ?_
  rw [List.takeWhile_append_dropWhile]

/-- After the place that is found, everything is later. -/
theorem later_of_mem_dropWhile {active : List T}
    (sorted : active.Pairwise fun a b => expireTime a ≤ expireTime b) {t : T}
    (member : t ∈ active.dropWhile (timerExpiredNs expireTime time)) : time < expireTime t := by
  induction active with
  | nil => cases member
  | cons first rest ih =>
    rw [List.pairwise_cons] at sorted
    by_cases expired : timerExpiredNs expireTime time first = true
    · rw [List.dropWhile_cons_of_pos expired] at member
      exact ih sorted.2 member
    · rw [List.dropWhile_cons_of_neg expired] at member
      have later : time < expireTime first := by
        rw [timerExpiredNs, decide_eq_true_eq] at expired
        omega
      rcases List.mem_cons.mp member with rfl | member
      · exact later
      · exact Int.lt_of_lt_of_le later (sorted.1 t member)

/-- A timer is put where it belongs: after those that are not later, before the others. -/
theorem insertTimer_pairwise {R : T → T → Prop} {active : List T} (before : active.Pairwise R)
    (sorted : active.Pairwise fun a b => expireTime a ≤ expireTime b)
    (earlier : ∀ t ∈ active, expireTime t ≤ time → R t timer)
    (later : ∀ t ∈ active, time < expireTime t → R timer t) :
    (insertTimer expireTime time timer active).Pairwise R := by
  rw [insertTimer_eq, List.pairwise_append, List.pairwise_cons]
  rw [← List.takeWhile_append_dropWhile (p := timerExpiredNs expireTime time) (l := active),
    List.pairwise_append] at before
  refine ⟨before.1, ⟨?_, before.2.1⟩, ?_⟩
  · intro t member
    exact later t ((List.dropWhile_sublist _).subset member) (later_of_mem_dropWhile sorted member)
  · intro a inFront b behind
    rcases List.mem_cons.mp behind with rfl | behind
    · have expired := List.mem_takeWhile_imp inFront
      rw [timerExpiredNs, decide_eq_true_eq] at expired
      exact earlier a ((List.takeWhile_sublist _).subset inFront) expired
    · exact before.2.2 a inFront b behind

end Insert

end QemuGzvm.Util
