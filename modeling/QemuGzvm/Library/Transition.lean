import Mathlib.Algebra.Order.Ring.Int

/-!
Contract: labelled transition systems and runs whose steps are restricted.

Owns:
- `LabelledSystem` and `ReachedBy`, the states reached through steps that were all
  allowed where they were taken;
- the invariant rule;
- systems whose step is a partial function, and their runs along a list of labels.

A condition under which a program is right is a restriction on steps: what is
right of every state reached through allowed steps is right of every run that
meets the condition.
-/

set_option autoImplicit false

namespace QemuGzvm.Library

universe u v

structure LabelledSystem (σ : Type u) (α : Type v) where
  init : σ → Prop
  step : σ → α → σ → Prop

namespace LabelledSystem

variable {σ : Type u} {α : Type v} (sys : LabelledSystem σ α) (allowed : σ → α → Prop) {s start : σ}
  {next : σ → α → Option σ}

inductive ReachedBy : σ → Prop
  | start {s : σ} (initial : sys.init s) : ReachedBy s
  | step {s t : σ} (label : α) (before : ReachedBy s) (ok : allowed s label)
      (taken : sys.step s label t) : ReachedBy t

/-- What holds at the start and is kept by every allowed step holds of every state
reached through allowed steps. -/
theorem ReachedBy.invariant {sys : LabelledSystem σ α} {allowed : σ → α → Prop} (inv : σ → Prop)
    (base : ∀ s, sys.init s → inv s)
    (keeps : ∀ s label t, inv s → allowed s label → sys.step s label t → inv t)
    (reached : sys.ReachedBy allowed s) : inv s := by
  induction reached with
  | start initial => exact base _ initial
  | step _ _ ok taken ih => exact keeps _ _ _ ih ok taken

theorem ReachedBy.mono {sys : LabelledSystem σ α} {allowed more : σ → α → Prop}
    (reached : sys.ReachedBy allowed s) (le : ∀ s label, allowed s label → more s label) :
    sys.ReachedBy more s := by
  induction reached with
  | start initial => exact .start initial
  | step label _ ok taken ih =>
    exact .step label ih (le _ _ ok) taken

/-- A system that may fail for good: what holds at the start, and is kept by every allowed
step that does not fail, holds of every state reached that has not failed. -/
theorem ReachedBy.invariant_unless {sys : LabelledSystem σ α} {allowed : σ → α → Prop}
    (failed inv : σ → Prop) (base : ∀ s, sys.init s → inv s)
    (stays : ∀ s label t, failed s → sys.step s label t → failed t)
    (keeps : ∀ s label t, inv s → allowed s label → sys.step s label t → failed t ∨ inv t)
    (reached : sys.ReachedBy allowed s) (fine : ¬failed s) : inv s := by
  refine (reached.invariant (fun s => failed s ∨ inv s) ?_ ?_).resolve_left fine
  · exact fun s initial => Or.inr (base s initial)
  · grind

/-- The system that starts in `start` and steps by a partial function. -/
def ofNext (start : σ) (next : σ → α → Option σ) : LabelledSystem σ α where
  init := (· = start)
  step := fun s label t => next s label = some t

/-- Takes the steps of a list, as long as none is blocked or outside `allowed`. -/
def runLabels (next : σ → α → Option σ) (allowed : σ → α → Prop)
    [∀ s label, Decidable (allowed s label)] : σ → List α → Option σ
  | s, [] => some s
  | s, label :: rest =>
    if allowed s label then (next s label).bind fun t => runLabels next allowed t rest
    else none

theorem ReachedBy.run {t : σ} {allowed : σ → α → Prop} [∀ s label, Decidable (allowed s label)]
    (labels : List α) (reached : (ofNext start next).ReachedBy allowed s)
    (ran : runLabels next allowed s labels = some t) :
    (ofNext start next).ReachedBy allowed t := by
  induction labels generalizing s with
  | nil =>
    cases ran
    exact reached
  | cons label rest ih =>
    rw [runLabels] at ran
    split at ran
    · next ok =>
      obtain ⟨middle, taken, ran⟩ := Option.bind_eq_some_iff.mp ran
      exact ih (reached.step label ok taken) ran
    · cases ran

/-- What the evaluation of a run shows holds of a state that is reached. -/
theorem exists_reachedBy {allowed : σ → α → Prop} [∀ s label, Decidable (allowed s label)]
    {shown : σ → Prop} (labels : List α)
    (ran : ∃ s ∈ runLabels next allowed start labels, shown s) :
    ∃ s, (ofNext start next).ReachedBy allowed s ∧ shown s := by
  obtain ⟨s, isRun, holds⟩ := ran
  exact ⟨s, .run labels (.start rfl) isRun, holds⟩

end LabelledSystem

end QemuGzvm.Library
