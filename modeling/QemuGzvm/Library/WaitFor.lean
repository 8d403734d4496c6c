import Mathlib.Logic.Function.Basic
import Mathlib.Logic.Relation

/-!
Contract: who waits for whom.

Owns:
- waiting relations given by a partial function, and cycles through them;
- the rule that a cycle needs someone who began to wait for one that waited already.

Each waiter has a stamp of when it began to wait. If whoever is waited for was not waiting then,
stamps grow along the relation, and no chain of waiters comes back to its start.
-/

set_option autoImplicit false

namespace QemuGzvm.Library

universe u

variable {α : Type u} {a b : α} {stamp : α → Nat} {waitsFor : α → Option α}

def Waits (waitsFor : α → Option α) (a b : α) : Prop := waitsFor a = some b

/-- Nobody waits for itself, directly or through others. -/
def NoWaitCycle (waitsFor : α → Option α) : Prop := ∀ a, ¬Relation.TransGen (Waits waitsFor) a a

/-- Along the relation, stamps grow as long as it goes on. -/
def StampsGrow (waitsFor : α → Option α) (stamp : α → Nat) : Prop :=
  ∀ a b, waitsFor a = some b → waitsFor b ≠ none → stamp a < stamp b

section

variable (grow : StampsGrow waitsFor stamp)
include grow

theorem StampsGrow.lt 
    (chain : Relation.TransGen (Waits waitsFor) a b) (goesOn : waitsFor b ≠ none) :
    stamp a < stamp b := by
  induction chain with
  | single waits => exact grow _ _ waits goesOn
  | @tail b c _ waits ih =>
    have middle : waitsFor b ≠ none := by
      rw [show waitsFor b = some c from waits]
      exact Option.some_ne_none _
    exact Nat.lt_trans (ih middle) (grow _ _ waits goesOn)

theorem StampsGrow.noWaitCycle : NoWaitCycle waitsFor := by
  intro a chain
  have waits : waitsFor a ≠ none := by
    obtain ⟨b, first, -⟩ := Relation.TransGen.head'_iff.mp chain
    rw [show waitsFor a = some b from first]
    exact Option.some_ne_none _
  exact Nat.lt_irrefl _ (grow.lt chain waits)

theorem StampsGrow.wait [DecidableEq α] {now : Nat}
    (free : waitsFor b = none) (different : b ≠ a) (latest : ∀ c, waitsFor c ≠ none → stamp c < now) :
    StampsGrow (Function.update waitsFor a (some b)) (Function.update stamp a now) := by
  intro c d waits goesOn
  by_cases own : c = a
  · grind
  · rw [Function.update_of_ne own] at waits ⊢
    by_cases onto : d = a
    · grind
    · rw [Function.update_of_ne onto] at goesOn ⊢
      exact grow c d waits goesOn

end

end QemuGzvm.Library
