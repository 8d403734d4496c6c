import Mathlib.Order.Lattice

/-!
Contract: a scan that keeps the best of what it has seen.

Owns:
- `scanBest`, a loop over items, each of which offers a value or none, with the best value so
  far as its accumulator;
- what the loop returns when `better` follows a key: a value of least key among the one it
  started from and all that were offered.

Whether an offer of the same key replaces the value kept is left to `better`.
-/

set_option autoImplicit false

namespace QemuGzvm.Library

universe u v w

variable {α : Type u} {β : Type v} {κ : Type w}

def keepBest (better : β → β → Bool) (best : β) : Option β → β
  | none => best
  | some offered => if better offered best then offered else best

def scanBest (better : β → β → Bool) (offer : α → Option β) (items : List α) (start : β) : β :=
  items.foldl (fun best item => keepBest better best (offer item)) start

section Key

variable [LinearOrder κ] {better : β → β → Bool} {offer : α → Option β}

/-- `better` compares keys, in one way or the other where they are equal. -/
structure FollowsKey (better : β → β → Bool) (key : β → κ) : Prop where
  le : ∀ {offered best}, better offered best = true → key offered ≤ key best
  ge : ∀ {offered best}, better offered best = false → key best ≤ key offered

variable {key : β → κ}

section

variable (follows : FollowsKey better key)
include follows

theorem FollowsKey.keepBest_le (best : β)
    (offered : Option β) : key (keepBest better best offered) ≤ key best := by
  cases offered with
  | none => exact le_refl _
  | some offered =>
    rw [keepBest]
    split
    · next yes => exact follows.le yes
    · exact le_refl _

theorem FollowsKey.keepBest_le_offered (best offered : β) :
    key (keepBest better best (some offered)) ≤ key offered := by
  grind [FollowsKey, keepBest]

theorem FollowsKey.scanBest_le (items : List α) (start : β) :
    key (scanBest better offer items start) ≤ key start := by
  induction items generalizing start with
  | nil => exact le_refl _
  | cons item rest ih =>
    have first := follows.keepBest_le start (offer item)
    exact le_trans (ih _) first

/-- Nothing that was offered is better than what the scan returns. -/
theorem FollowsKey.scanBest_le_offered {items : List α}
    {item : α} {offered : β} (member : item ∈ items) (offers : offer item = some offered)
    (start : β) : key (scanBest better offer items start) ≤ key offered := by
  induction items generalizing start with
  | nil => exact absurd member List.not_mem_nil
  | cons head rest ih =>
    cases List.mem_cons.mp member with
    | inl same =>
      subst same
      have first := follows.keepBest_le_offered start offered
      rw [← offers] at first
      exact le_trans (follows.scanBest_le rest _) first
    | inr member => exact ih member _

end

end Key

theorem scanBest_eq_start_or_offered {better : β → β → Bool} {offer : α → Option β}
    (items : List α) (start : β) :
    scanBest better offer items start = start ∨
      ∃ item ∈ items, offer item = some (scanBest better offer items start) := by
  induction items generalizing start with
  | nil => exact Or.inl rfl
  | cons item rest ih =>
    have step : scanBest better offer (item :: rest) start =
        scanBest better offer rest (keepBest better start (offer item)) := rfl
    rw [step]
    rcases ih (keepBest better start (offer item)) with kept | ⟨other, member, offers⟩
    · rw [kept]
      cases offers : offer item with
      | none => exact Or.inl rfl
      | some offered =>
        rw [keepBest]
        split
        · exact Or.inr ⟨item, List.mem_cons_self, offers⟩
        · exact Or.inl rfl
    · exact Or.inr ⟨other, List.mem_cons_of_mem _ member, offers⟩

end QemuGzvm.Library
