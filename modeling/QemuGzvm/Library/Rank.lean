import Mathlib.Order.WellFounded
import Mathlib.Data.List.Basic

/-!
Contract: ranks of finitely branching relations.

Owns:
- `exists_rank`: a well-founded relation under which every point has finitely
  many points is below a strict order of natural numbers;
- `eq_of_rank_lt`: a recursion that only goes down does not depend on its depth.
-/

set_option autoImplicit false

namespace QemuGzvm.Library

variable {α : Type}

theorem exists_rank {below : α → α → Prop} (acyclic : WellFounded below) (branches : α → List α)
    (listed : ∀ child parent, below child parent → child ∈ branches parent) :
    ∃ rank : α → Nat, ∀ child parent, below child parent → rank child < rank parent := by
  classical
  -- The rank of a point is one more than the largest rank below it.
  let level : (parent : α) → ((child : α) → below child parent → Nat) → Nat :=
    fun parent rank => ((branches parent).map fun child =>
      if isBelow : below child parent then rank child isBelow + 1 else 0).max?.getD 0
  refine ⟨acyclic.fix level, fun child parent isBelow => ?_⟩
  rw [acyclic.fix_eq level parent]
  refine Nat.lt_of_succ_le (List.le_max?_getD_of_mem
    (List.mem_map.mpr ⟨child, listed child parent isBelow, ?_⟩))
  rw [dif_pos isBelow]

/-- Above the rank of a point the depth given to the recursion makes no difference. -/
theorem eq_of_rank_lt {β : Type} {rank : α → Nat} {f : Nat → α → β}
    (step : ∀ m n a, (∀ b, rank b < rank a → f m b = f n b) → f (m + 1) a = f (n + 1) a)
    {m n : Nat} {a : α} (first : rank a < m) (second : rank a < n) : f m a = f n a := by
  induction m generalizing n a with
  | zero => exact absurd first (Nat.not_lt_zero _)
  | succ m ih =>
    cases n with
    | zero => exact absurd second (Nat.not_lt_zero _)
    | succ n => exact step m n a fun b lower => ih (by omega) (by omega)

end QemuGzvm.Library
