import QemuGzvm.Library.CheckedArray

/-!
Contract: loops whose turns may stop at a fault.

Owns:
- `runLoop`, the iteration of a turn that either goes on with a new state or finishes;
- `LoopReaches`, the states a loop comes to, and `Finishes`, the results it ends with;
- when the turns given to a loop suffice, and which faults it then ends with;
- `forEach`, a step made for each item of a list, and its rules.
-/

set_option autoImplicit false

namespace QemuGzvm.Library

universe u v

inductive Turn (σ : Type u) (ρ : Type v) where
  | more (state : σ)
  | finish (result : ρ)

section

variable {σ ρ : Type u} (turn : σ → Checked (Turn σ ρ))

def runLoop : Nat → σ → Checked ρ
  | 0, _ => .error .unfinished
  | fuel + 1, state =>
    (turn state).bind fun
      | .more next => runLoop fuel next
      | .finish result => .ok result

/-- The states at which a loop started in `start` takes a turn. -/
inductive LoopReaches (start : σ) : σ → Prop
  | refl : LoopReaches start start
  | step {state next : σ} (before : LoopReaches start state)
      (taken : turn state = .ok (.more next)) : LoopReaches start next

variable {turn} {start state : σ}

theorem LoopReaches.head {next : σ} (taken : turn start = .ok (.more next))
    (rest : LoopReaches turn next state) : LoopReaches turn start state := by
  induction rest with
  | refl => exact .step .refl taken
  | step _ more ih => exact .step ih more

theorem LoopReaches.cases_head (way : LoopReaches turn start state) :
    state = start ∨ ∃ next, turn start = .ok (.more next) ∧ LoopReaches turn next state := by
  induction way with
  | refl => exact .inl rfl
  | step _ taken ih =>
    refine .inr ?_
    rcases ih with same | ⟨next, first, rest⟩
    · subst same
      exact ⟨_, taken, .refl⟩
    · exact ⟨next, first, .step rest taken⟩

theorem LoopReaches.invariant (way : LoopReaches turn start state) (inv : σ → Prop)
    (base : inv start) (keeps : ∀ state next, inv state → turn state = .ok (.more next) → inv next) :
    inv state := by
  induction way with
  | refl => exact base
  | step _ taken ih => exact keeps _ _ ih taken

/-- Some number of turns ends with `result`. -/
inductive Finishes (turn : σ → Checked (Turn σ ρ)) (result : ρ) : σ → Prop
  | last {state : σ} (taken : turn state = .ok (.finish result)) : Finishes turn result state
  | more {state next : σ} (taken : turn state = .ok (.more next))
      (rest : Finishes turn result next) : Finishes turn result state

theorem finishes_iff {result : ρ} :
    Finishes turn result state ↔ ∃ fuel, runLoop turn fuel state = .ok result := by
  constructor
  · intro finishes
    induction finishes with
    | last taken => exact ⟨1, by rw [runLoop, taken, bind_ok]⟩
    | more taken _ ih =>
      obtain ⟨fuel, ran⟩ := ih
      refine ⟨fuel + 1, ?_⟩
      rw [runLoop, taken, bind_ok]
      exact ran
  · intro runs
    obtain ⟨fuel, ran⟩ := runs
    induction fuel generalizing state with
    | zero => cases ran
    | succ fuel ih =>
      rw [runLoop] at ran
      obtain ⟨outcome, taken, ran⟩ := bind_eq_ok.mp ran
      cases outcome with
      | more next => exact .more taken (ih ran)
      | finish other =>
        cases ran
        exact .last taken

/-- A loop whose turns lower a rank, given more turns than the rank it starts with, ends
with a fault exactly if it comes to a turn that does. -/
theorem runLoop_fault_iff (rank : σ → Nat) (inv : σ → Prop)
    (falls : ∀ state next, inv state → turn state = .ok (.more next) →
      inv next ∧ rank next < rank state)
    {fuel : Nat} (base : inv start) (enough : rank start < fuel) (fault : Fault) :
    runLoop turn fuel start = .error fault ↔
      ∃ state, LoopReaches turn start state ∧ turn state = .error fault := by
  induction fuel generalizing start with
  | zero => exact absurd enough (Nat.not_lt_zero _)
  | succ fuel ih =>
    rw [runLoop]
    constructor
    · intro failed
      cases taken : turn start with
      | error other =>
        rw [taken, bind_error] at failed
        rw [Except.error.inj failed] at taken
        exact ⟨start, .refl, taken⟩
      | ok result =>
        rw [taken, bind_ok] at failed
        cases result with
        | finish result => cases failed
        | more next =>
          obtain ⟨kept, lower⟩ := falls start next base taken
          obtain ⟨state, way, stops⟩ := (ih kept (by omega)).mp failed
          exact ⟨state, way.head taken, stops⟩
    · intro stops
      obtain ⟨state, way, stops⟩ := stops
      rcases way.cases_head with same | ⟨next, taken, rest⟩
      · subst same
        rw [stops, bind_error]
      · obtain ⟨kept, lower⟩ := falls start next base taken
        rw [taken, bind_ok]
        exact (ih kept (by omega)).mpr ⟨state, rest, stops⟩

end

/-! ### Lists -/

section ForEach

variable {σ α : Type u} {step : σ → α → Checked σ} {items : List α} {s t : σ}

/-- Makes the step for each item, as long as none stops at a fault. -/
def forEach (step : σ → α → Checked σ) : List α → σ → Checked σ
  | [], s => .ok s
  | item :: rest, s => (step s item).bind fun t => forEach step rest t

/-- An invariant that knows which items are still to come. -/
theorem forEach_suffix (inv : List α → σ → Prop)
    (keeps : ∀ item rest s t, inv (item :: rest) s → step s item = .ok t → inv rest t)
    (start : inv items s) (ran : forEach step items s = .ok t) : inv [] t := by
  induction items generalizing s with
  | nil =>
    cases ran
    exact start
  | cons item rest ih =>
    obtain ⟨middle, first, ran⟩ := bind_eq_ok.mp ran
    exact ih (keeps item rest s middle start first) ran

theorem forEach_keeps (inv : σ → Prop)
    (keeps : ∀ s t item, item ∈ items → inv s → step s item = .ok t → inv t) (start : inv s)
    (ran : forEach step items s = .ok t) : inv t := by
  induction items generalizing s with
  | nil =>
    cases ran
    exact start
  | cons item rest ih =>
    obtain ⟨middle, first, ran⟩ := bind_eq_ok.mp ran
    apply ih _ (keeps s middle item List.mem_cons_self start first) ran
    intro s t item member
    exact keeps s t item (List.mem_cons_of_mem _ member)

/-- The step at which a loop stops. -/
theorem forEach_fault {fault : Fault} (inv : σ → Prop)
    (keeps : ∀ s t item, item ∈ items → inv s → step s item = .ok t → inv t) (start : inv s)
    (stopped : forEach step items s = .error fault) :
    ∃ item ∈ items, ∃ t, inv t ∧ step t item = .error fault := by
  induction items generalizing s with
  | nil => cases stopped
  | cons item rest ih =>
    rw [forEach] at stopped
    cases first : step s item with
    | error other =>
      grind [bind_error]
    | ok middle =>
      grind [bind_ok]

/-- If each step returns, establishes something for its item and keeps what others have
established, the loop returns and has established it for all items. -/
theorem forEach_establishes (inv : σ → Prop) (done : α → σ → Prop)
    (steps : ∀ s item, item ∈ items → inv s →
      ∃ t, step s item = .ok t ∧ inv t ∧ done item t ∧ ∀ other, done other s → done other t)
    (start : inv s) :
    ∃ t, forEach step items s = .ok t ∧ inv t ∧ (∀ item ∈ items, done item t) ∧
      ∀ other, done other s → done other t := by
  induction items generalizing s with
  | nil => exact ⟨s, rfl, start, nofun, fun _ => id⟩
  | cons item rest ih =>
    obtain ⟨middle, first, kept, doneFirst, keepsFirst⟩ :=
      steps s item List.mem_cons_self start
    obtain ⟨t, ran, keptRest, doneRest, keepsRest⟩ := ih
      (fun s other member => steps s other (List.mem_cons_of_mem _ member)) kept
    refine ⟨t, ?_, keptRest, ?_, fun other before => keepsRest other (keepsFirst other before)⟩
    · rw [forEach, first, bind_ok]
      exact ran
    · grind

end ForEach

end QemuGzvm.Library
