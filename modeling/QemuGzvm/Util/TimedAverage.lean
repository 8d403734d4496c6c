import QemuGzvm.Library.CheckedArray

/-!
Contract: averages over the last period (`util/timed-average.c`).

Owns:
- `TimedAverage` and the calls on it, over any readings of the clock;
- `Covers`: each window holds what was accounted since it started, and the two end half a period
  apart.

Times and sums are numbers here, as in every run in which they fit in 64 bits.
-/

namespace QemuGzvm.Util

open QemuGzvm.Library

def uint64Max : Nat := 2 ^ 64 - 1

structure TimedAverageWindow where
  min : Nat
  max : Nat
  sum : Nat
  count : Nat
  expiration : Int

structure TimedAverage where
  period : Nat
  windows : Fin 2 → TimedAverageWindow
  current : Fin 2

def updateExpiration (w : TimedAverageWindow) (now period : Int) : TimedAverageWindow :=
  let elapsed := (now - w.expiration).tmod period
  let remaining := period - elapsed
  { w with expiration := now + remaining }

def windowReset (w : TimedAverageWindow) : TimedAverageWindow :=
  { w with min := uint64Max, max := 0, sum := 0, count := 0 }

def currentWindow (ta : TimedAverage) : TimedAverageWindow := ta.windows ta.current

def timedAverageInit (now : Int) (period : Nat) : TimedAverage :=
  let period := period * 4 / 3
  { period, current := 0,
    windows := fun
      | 0 => windowReset ⟨0, 0, 0, 0, now + period / 2⟩
      | 1 => windowReset ⟨0, 0, 0, 0, now + period⟩ }

/-- One turn of the loop of `check_expirations`. -/
def checkWindow (w : TimedAverageWindow) (now period : Int) : TimedAverageWindow :=
  if w.expiration ≤ now then updateExpiration (windowReset w) now period else w

/-- With what is stored in `elapsed`. -/
def checkExpirations (ta : TimedAverage) (now : Int) : Checked (TimedAverage × Int) :=
  if ta.period = 0 then .error .assertion
  else
    let windows := fun i => checkWindow (ta.windows i) now ta.period
    let current := if (windows 0).expiration < (windows 1).expiration then 0 else 1
    let remaining := (windows current).expiration - now
    .ok ({ ta with windows, current }, ta.period - remaining)

def accountWindow (w : TimedAverageWindow) (value : Nat) : TimedAverageWindow :=
  { w with
    sum := w.sum + value
    count := w.count + 1
    min := if value < w.min then value else w.min
    max := if value > w.max then value else w.max }

def timedAverageAccount (ta : TimedAverage) (now : Int) (value : Nat) : Checked TimedAverage :=
  (checkExpirations ta now).bind fun (ta, _) =>
    .ok { ta with windows := fun i => accountWindow (ta.windows i) value }

/-- What a query does, by what it reads in the current window. Only `timed_average_sum` passes
`elapsed` on. -/
def timedAverageQuery (answer : TimedAverageWindow → Nat) (ta : TimedAverage) (now : Int) :
    Checked (TimedAverage × Nat × Int) :=
  (checkExpirations ta now).bind fun (ta, elapsed) =>
    .ok (ta, answer (currentWindow ta), elapsed)

def timedAverageMin := timedAverageQuery fun w => if w.min < uint64Max then w.min else 0

def timedAverageAvg := timedAverageQuery fun w => if 0 < w.count then w.sum / w.count else 0

def timedAverageMax := timedAverageQuery TimedAverageWindow.max

def timedAverageSum := timedAverageQuery TimedAverageWindow.sum

inductive TimedAverageCall where
  | account (value : Nat)
  | query (answer : TimedAverageWindow → Nat)

def timedAverageCall (ta : TimedAverage) (now : Int) : TimedAverageCall → Checked TimedAverage
  | .account value => timedAverageAccount ta now value
  | .query answer => (timedAverageQuery answer ta now).map Prod.fst

/-- Calls, each with its reading of the clock. -/
def runCalls : TimedAverage → List (Int × TimedAverageCall) → Checked TimedAverage
  | ta, [] => .ok ta
  | ta, (now, call) :: calls => (timedAverageCall ta now call).bind (runCalls · calls)

/-! ### Windows -/

def TimedAverageCall.values : TimedAverageCall → List Nat
  | .account value => [value]
  | .query _ => []

def valuesSince (start : Int) (calls : List (Int × TimedAverageCall)) : List Nat :=
  (calls.filter (start ≤ ·.1)).flatMap (·.2.values)

/-- The window that ends at `expiration` and holds these values. -/
def windowOf (values : List Nat) (expiration : Int) : TimedAverageWindow :=
  ⟨values.foldl min uint64Max, values.foldl max 0, values.sum, values.length, expiration⟩

variable {ta : TimedAverage} {period : Nat} {clock now expiration : Int}
  {calls : List (Int × TimedAverageCall)}

theorem accountWindow_windowOf (values : List Nat) (expiration : Int) (value : Nat) :
    accountWindow (windowOf values expiration) value =
      windowOf (values ++ [value]) expiration := by
  simp only [accountWindow, windowOf, List.foldl_concat, List.sum_append, List.length_append,
    List.sum_singleton, List.length_singleton]
  congr 1 <;> grind

theorem valuesSince_eq_nil (earlier : ∀ call ∈ calls, call.1 < expiration)
    (after : expiration ≤ clock) : valuesSince clock calls = [] := by
  rw [valuesSince, List.filter_eq_nil_iff.mpr, List.flatMap_nil]
  intro call member
  have before := earlier call member
  simp only [decide_eq_true_eq]
  omega

theorem valuesSince_concat (started : clock ≤ now) (call : TimedAverageCall) :
    valuesSince clock (calls ++ [(now, call)]) = valuesSince clock calls ++ call.values := by
  simp [valuesSince, started]

/-- A window whose end has come starts again, whole periods after its last start, when all values
were accounted before. -/
theorem checkWindow_windowOf (now : Int) (positive : 0 < period)
    (earlier : ∀ call ∈ calls, call.1 < expiration) (near : expiration ≤ now + period) :
    ∃ next, ∃ turns : Int, next = expiration + turns * period ∧ expiration ≤ next ∧
      checkWindow (windowOf (valuesSince (expiration - period) calls) expiration) now period =
        windowOf (valuesSince (next - period) calls) next ∧ now < next ∧ next ≤ now + period := by
  by_cases due : expiration ≤ now
  · have split := Int.ediv_mul_add_emod (now - expiration) period
    have nonneg := Int.emod_nonneg (now - expiration) (show (period : Int) ≠ 0 by omega)
    have small := Int.emod_lt_of_pos (now - expiration) (show 0 < (period : Int) by omega)
    have atLeast := Int.mul_nonneg
      (Int.ediv_nonneg (show 0 ≤ now - expiration by omega) (Int.natCast_nonneg period))
      (Int.natCast_nonneg period)
    refine ⟨now + (period - (now - expiration) % period), (now - expiration) / period + 1, ?_,
      by omega, ?_, by omega, by omega⟩
    · rw [Int.add_mul, Int.one_mul]
      omega
    · have none : valuesSince (now + (period - (now - expiration) % period) - period) calls = [] :=
        valuesSince_eq_nil earlier (by omega)
      rw [none, ← Int.tmod_eq_emod_of_nonneg (by omega)]
      exact if_pos due
  · exact ⟨expiration, 0, by simp, Int.le_refl _, if_neg due, by omega, near⟩

/-- The ends of the windows are half a period apart. -/
def HalfApart (period first second : Int) : Prop :=
  second - first = period - period / 2 ∨ first - second = period / 2

/-- Ends that move by whole periods stay half a period apart if they are less than a period
apart. -/
theorem HalfApart.move {first second first' second' turns turns' : Int} (positive : 0 < period)
    (apart : HalfApart period first second) (isFirst : first' = first + turns * period)
    (isSecond : second' = second + turns' * period) (low : first' < second' + period)
    (high : second' < first' + period) : HalfApart period first' second' := by
  have isGap : second' - first' = second - first + (turns' - turns) * period := by
    rw [Int.sub_mul]
    omega
  generalize turns' - turns = turns at isGap
  unfold HalfApart at apart ⊢
  have above : -2 < turns :=
    Int.lt_of_mul_lt_mul_right (show -2 * (period : Int) < turns * period by omega) (by omega)
  have below : turns < 2 :=
    Int.lt_of_mul_lt_mul_right (show turns * (period : Int) < 2 * period by omega) (by omega)
  obtain rfl | rfl | rfl : turns = -1 ∨ turns = 0 ∨ turns = 1 := by omega
  all_goals omega

/-! ### Runs -/

/-- Each window holds the values accounted since it started. -/
structure Covers (period : Nat) (clock : Int) (calls : List (Int × TimedAverageCall))
    (ta : TimedAverage) : Prop where
  periodEq : ta.period = period
  window : ∀ i, ta.windows i =
    windowOf (valuesSince ((ta.windows i).expiration - period) calls) (ta.windows i).expiration
  earlier : ∀ i, ∀ call ∈ calls, call.1 < (ta.windows i).expiration
  near : ∀ i, (ta.windows i).expiration ≤ clock + period
  apart : HalfApart period (ta.windows 0).expiration (ta.windows 1).expiration

theorem covers_init (period : Nat) (start : Int) :
    Covers (period * 4 / 3) start [] (timedAverageInit start period) where
  periodEq := rfl
  window i := by
    match i with
    | 0 => rfl
    | 1 => rfl
  earlier i := nofun
  near i := by
    match i with
    | 0 => exact Int.add_le_add_left (by omega) _
    | 1 => exact Int.le_refl _
  apart := by
    left
    dsimp only [timedAverageInit, windowReset]
    omega

section

variable (covers : Covers period clock calls ta) (positive : 0 < period) (later : clock ≤ now)
include covers positive later

theorem Covers.check :
    ∃ ta' elapsed, checkExpirations ta now = .ok (ta', elapsed) ∧ Covers period now calls ta' ∧
      (∀ i, now < (ta'.windows i).expiration) ∧
      currentWindow ta' =
        windowOf (valuesSince (now - elapsed) calls) (now - elapsed + period) ∧
      period / 2 ≤ elapsed ∧ elapsed < period := by
  have one (i : Fin 2) := checkWindow_windowOf now positive (covers.earlier i)
    (Int.le_trans (covers.near i) (Int.add_le_add_right later _))
  choose next turns isNext after checked low high using one
  simp only [← covers.window] at checked
  have low0 := low 0
  have low1 := low 1
  have high0 := high 0
  have high1 := high 1
  have apart := covers.apart.move positive (isNext 0) (isNext 1) (by omega) (by omega)
  let current : Fin 2 := if next 0 < next 1 then 0 else 1
  have ran : checkExpirations ta now = .ok
      (⟨period, fun i => windowOf (valuesSince (next i - period) calls) (next i), current⟩,
        period - (next current - now)) := by
    rw [checkExpirations, covers.periodEq, if_neg (Nat.ne_of_gt positive)]
    simp only [checked]
    rfl
  refine ⟨_, _, ran, ⟨rfl, fun _ => rfl, ?_, high, apart⟩, low, ?_, ?_⟩
  · exact fun i call member => Int.lt_of_lt_of_le (covers.earlier i call member) (after i)
  · have start : now - (period - (next current - now)) = next current - period := by omega
    rw [currentWindow, start, Int.sub_add_cancel]
  · unfold HalfApart at apart
    by_cases first : next 0 < next 1
    · rw [show current = 0 from if_pos first]
      omega
    · rw [show current = 1 from if_neg first]
      omega

theorem Covers.call (call : TimedAverageCall) :
    ∃ ta', timedAverageCall ta now call = .ok ta' ∧
      Covers period now (calls ++ [(now, call)]) ta' := by
  obtain ⟨checked, elapsed, ran, kept, low, -⟩ := covers.check positive later
  have earlier (i : Fin 2) := List.forall_mem_append.mpr
    ⟨kept.earlier i, List.forall_mem_singleton.mpr (show (now, call).1 < _ from low i)⟩
  have since (i : Fin 2) : valuesSince _ (calls ++ [(now, call)]) = _ := valuesSince_concat
    (show (checked.windows i).expiration - period ≤ now by have := kept.near i; omega) call
  cases call with
  | account value =>
    refine ⟨{ checked with windows := fun i => accountWindow (checked.windows i) value },
      by rw [timedAverageCall, timedAverageAccount, ran]; rfl, kept.periodEq, fun i => ?_, earlier,
      kept.near, kept.apart⟩
    refine (congrArg (accountWindow · value) (kept.window i)).trans ?_
    rw [accountWindow_windowOf]
    exact congrArg (windowOf · _) (since i).symm
  | query answer =>
    refine ⟨checked, by rw [timedAverageCall, timedAverageQuery, ran]; rfl, kept.periodEq,
      fun i => ?_, earlier, kept.near, kept.apart⟩
    rw [since, TimedAverageCall.values, List.append_nil]
    exact kept.window i

end

theorem Covers.run {more : List (Int × TimedAverageCall)} (covers : Covers period clock calls ta)
    (positive : 0 < period) (ordered : (clock :: more.map Prod.fst).IsChain (· ≤ ·)) :
    ∃ ta', runCalls ta more = .ok ta' ∧
      Covers period ((more.map Prod.fst).getLastD clock) (calls ++ more) ta' := by
  induction more generalizing ta clock calls with
  | nil => exact ⟨ta, rfl, by rwa [List.append_nil]⟩
  | cons head more ih =>
    obtain ⟨now, call⟩ := head
    obtain ⟨later, ordered⟩ := List.isChain_cons_cons.mp ordered
    obtain ⟨next, called, kept⟩ := covers.call positive later call
    rw [runCalls, called, bind_ok, List.append_cons, List.map_cons, List.getLastD_cons]
    exact ih kept ordered

/-- At a query after any calls, the current window holds exactly the values accounted since it
started, which was between half a period and a period ago. -/
theorem timed_average_covers_window {period : Nat} (positive : 0 < period) (start : Int)
    (ordered : (start :: calls.map Prod.fst).IsChain (· ≤ ·))
    (later : (calls.map Prod.fst).getLastD start ≤ now) (answer : TimedAverageWindow → Nat) :
    ∃ ta ta' elapsed, runCalls (timedAverageInit start period) calls = .ok ta ∧
      HalfApart (period * 4 / 3 : Nat) (ta.windows 0).expiration (ta.windows 1).expiration ∧
      timedAverageQuery answer ta now = .ok (ta', answer (currentWindow ta'), elapsed) ∧
      currentWindow ta' =
        windowOf (valuesSince (now - elapsed) calls) (now - elapsed + (period * 4 / 3 : Nat)) ∧
      (period * 4 / 3 : Nat) / 2 ≤ elapsed ∧ elapsed < (period * 4 / 3 : Nat) := by
  obtain ⟨ta, ran, covers⟩ := (covers_init period start).run (by omega) ordered
  obtain ⟨ta', elapsed, checked, -, -, window⟩ := covers.check (by omega) later
  exact ⟨ta, ta', elapsed, ran, covers.apart, by rw [timedAverageQuery, checked]; rfl, window⟩

/-- A sum after two values, the second of them when both windows have ended twice. -/
theorem timed_average_covers_window_gap : ∃ ta ta' elapsed,
    runCalls (timedAverageInit 0 3) [(1, .account 5), (10, .account 7)] = .ok ta ∧
      timedAverageSum ta 11 = .ok (ta', (currentWindow ta').sum, elapsed) ∧
      2 ≤ elapsed := by
  obtain ⟨ta, ta', elapsed, ran, -, query, -, low, -⟩ :=
    @timed_average_covers_window 11 [(1, .account 5), (10, .account 7)] 3 (by decide) 0 (by simp)
      (by decide) TimedAverageWindow.sum
  exact ⟨ta, ta', elapsed, ran, query, low⟩

end QemuGzvm.Util
