import Mathlib.Data.List.Basic
import Mathlib.Algebra.Order.Ring.Int

/-!
Contract: C arrays whose every access is checked, and bisection over them.

Owns:
- the ways a run of a C program stops here: an access outside an array, a failed
  `assert`, and a loop that has not ended after the iterations it was given;
- checked reads, writes and `memmove`;
- the two edits of a live prefix made with `memmove`: opening one cell and
  closing one cell;
- bisection for the first index that passes a monotone test, with the signed
  bounds a C loop uses.

An array is the list of its cells, so that its length is its allocation. The
live part of a partly filled array is a prefix `cells.take count`.
-/

set_option autoImplicit false

namespace QemuGzvm.Library

universe u

inductive Fault where
  | outOfBounds
  | assertion
  | unfinished
deriving DecidableEq, Repr

/-- A computation that either returns or stops at a fault. -/
abbrev Checked (α : Type u) := Except Fault α

variable {α β : Type u} {computation : Checked α} {cell : α} {next : α → Checked β}

theorem bind_ok (value : α) (next : α → Checked β) :
    (Except.ok value : Checked α).bind next = next value := rfl

theorem bind_error (fault : Fault) (next : α → Checked β) :
    (Except.error fault : Checked α).bind next = .error fault := rfl

theorem bind_eq_ok {result : β} :
    computation.bind next = .ok result ↔
      ∃ value, computation = .ok value ∧ next value = .ok result := by
  cases computation with
  | error fault => simp [bind_error]
  | ok value => simp [bind_ok]

theorem bind_eq_error {fault : Fault} :
    computation.bind next = .error fault ↔
      computation = .error fault ∨ ∃ value, computation = .ok value ∧ next value = .error fault := by
  cases computation with
  | error other => simp [bind_error]
  | ok value => simp [bind_ok]

theorem toOption_eq_some {value : α} :
    computation.toOption = some value ↔ computation = .ok value := by
  cases computation <;> simp [Except.toOption]

section Arrays

def readAt (cells : List α) (index : Nat) : Checked α :=
  match cells[index]? with
  | some cell => .ok cell
  | none => .error .outOfBounds

def writeAt (cells : List α) (index : Nat) (cell : α) : Checked (List α) :=
  if index < cells.length then .ok (cells.set index cell) else .error .outOfBounds

/-- `memmove(&cells[target], &cells[source], count)`. Moving nothing touches no
cell, whatever the two pointers are. -/
def memmove (cells : List α) (target source count : Nat) : Checked (List α) :=
  if count = 0 then .ok cells
  else if target + count ≤ cells.length ∧ source + count ≤ cells.length then
    .ok (cells.take target ++ (cells.drop source).take count ++ cells.drop (target + count))
  else .error .outOfBounds

variable {cells : List α} {index : Nat}

theorem readAt_of_getElem? (present : cells[index]? = some cell) :
    readAt cells index = .ok cell := by
  simp [readAt, present]

theorem readAt_eq_ok : readAt cells index = .ok cell ↔ cells[index]? = some cell := by
  unfold readAt
  cases cells[index]? <;> simp

theorem writeAt_of_lt (inside : index < cells.length) (cell : α) :
    writeAt cells index cell = .ok (cells.set index cell) := by
  simp [writeAt, inside]

/-- Shift the live suffix `after` up by one cell and write the freed cell: the
live part gains `cell` between `before` and `after`. -/
theorem memmove_open (before after rest : List α) (spare cell : α) :
    (memmove (before ++ after ++ spare :: rest) (before.length + 1) before.length
        after.length).bind (fun moved => writeAt moved before.length cell) =
      .ok (before ++ cell :: after ++ rest) := by
  cases after with
  | nil => simp [memmove, writeAt, Except.bind]
  | cons first others =>
    have bounds : before.length + 1 + (first :: others).length ≤
          (before ++ first :: others ++ spare :: rest).length ∧
        before.length + (first :: others).length ≤
          (before ++ first :: others ++ spare :: rest).length := by
      simp
      omega
    have restStart : (before ++ first :: others ++ spare :: rest).drop
        (before.length + 1 + (first :: others).length) = rest := by
      rw [show before.length + 1 + (first :: others).length =
        (before ++ first :: others ++ [spare]).length by simp; omega,
        show before ++ first :: others ++ spare :: rest =
          (before ++ first :: others ++ [spare]) ++ rest by simp, List.drop_left]
    have headPart : (before ++ first :: others ++ spare :: rest).take (before.length + 1) =
        before ++ [first] := by
      grind
    have moving : ((before ++ first :: others ++ spare :: rest).drop before.length).take
        (first :: others).length = first :: others := by
      rw [List.append_assoc, List.drop_left, List.take_left]
    rw [memmove, if_neg (by simp), if_pos bounds, restStart, headPart, moving]
    simp [Except.bind, writeAt]

/-- Shift the live suffix `after` down by one cell: `gone` leaves the live part
and one spare cell stands behind it. -/
theorem memmove_close (before after rest : List α) (gone : α) :
    ∃ spare, memmove (before ++ gone :: after ++ rest) before.length (before.length + 1)
      after.length = .ok (before ++ after ++ spare :: rest) := by
  rcases List.eq_nil_or_concat after with rfl | ⟨inner, last, rfl⟩
  · exact ⟨gone, by simp [memmove]⟩
  · refine ⟨last, ?_⟩
    have bounds : before.length + (inner.concat last).length ≤
          (before ++ gone :: inner.concat last ++ rest).length ∧
        before.length + 1 + (inner.concat last).length ≤
          (before ++ gone :: inner.concat last ++ rest).length := by
      simp
      omega
    have restStart : (before ++ gone :: inner.concat last ++ rest).drop
        (before.length + (inner.concat last).length) = last :: rest := by
      rw [show before.length + (inner.concat last).length =
        (before ++ gone :: inner).length by simp,
        show before ++ gone :: inner.concat last ++ rest =
          (before ++ gone :: inner) ++ last :: rest by simp, List.drop_left]
    have moving : ((before ++ gone :: inner.concat last ++ rest).drop (before.length + 1)).take
        (inner.concat last).length = inner.concat last := by
      rw [show before.length + 1 = (before ++ [gone]).length by simp,
        show before ++ gone :: inner.concat last ++ rest =
          (before ++ [gone]) ++ (inner.concat last ++ rest) by simp, List.drop_left,
        List.take_left]
    rw [memmove, if_neg (by simp), if_pos bounds, restStart, moving]
    simp

end Arrays

/-! ### Bisection -/

/-- The loop `while (lo <= hi)` that halves `[lo, hi]` and keeps in `first` the
lowest index seen so far that passes the test. `hi` starts at `count - 1`, which
is `-1` for an empty array. -/
def bisect (test : Nat → Checked Bool) : Nat → Int → Int → Nat → Checked Nat
  | 0, _, _, first => .ok first
  | fuel + 1, lo, hi, first =>
    if lo ≤ hi then
      let mid := lo + (hi - lo) / 2
      (test mid.toNat).bind fun passes =>
        if passes then bisect test fuel lo (mid - 1) mid.toNat
        else bisect test fuel (mid + 1) hi first
    else .ok first

/-- Bisection over a test that never faults and is monotone returns the boundary
between the indices that fail and those that pass. -/
theorem bisect_spec {test : Nat → Checked Bool} {passes : Nat → Bool} {count : Nat}
    (total : ∀ index, index < count → test index = .ok (passes index))
    (monotone : ∀ low high, low ≤ high → high < count → passes low = true → passes high = true) :
    ∀ (fuel : Nat) (lo hi : Int) (first : Nat), 0 ≤ lo → lo ≤ hi + 1 → hi < count →
      hi + 1 - lo ≤ fuel → (first : Int) = hi + 1 →
      (∀ index : Nat, (index : Int) < lo → passes index = false) →
      (∀ index : Nat, hi < index → index < count → passes index = true) →
      ∃ found, bisect test fuel lo hi first = .ok found ∧ found ≤ count ∧
        (∀ index, index < found → passes index = false) ∧
        (∀ index, found ≤ index → index < count → passes index = true) := by
  intro fuel
  induction fuel with
  | zero =>
    intro lo hi first loNonneg order hiLt enough firstEq below above
    refine ⟨first, rfl, by omega, fun index indexLt => below index (by omega), ?_⟩
    intro index indexGe indexLt
    exact above index (by omega) indexLt
  | succ fuel ih =>
    intro lo hi first loNonneg order hiLt enough firstEq below above
    by_cases more : lo ≤ hi
    · have midRange : lo ≤ lo + (hi - lo) / 2 ∧ lo + (hi - lo) / 2 ≤ hi := by omega
      generalize midEq : lo + (hi - lo) / 2 = mid at midRange
      have midLt : mid.toNat < count := by omega
      rw [bisect, if_pos more]
      simp only [midEq, total mid.toNat midLt, Except.bind]
      -- The probe decides which half keeps the boundary.
      cases probe : passes mid.toNat with
      | true =>
        rw [if_pos rfl]
        apply ih lo (mid - 1) mid.toNat loNonneg (by omega) (by omega)
          (by omega) (by omega) below
        intro index indexGt indexLt
        exact monotone mid.toNat index (by omega) indexLt probe
      | false =>
        rw [if_neg (by simp)]
        apply ih (mid + 1) hi first (by omega) (by omega) hiLt
          (by omega) firstEq _ above
        intro index indexLt
        cases low : passes index with
        | false => rfl
        | true =>
          rw [monotone index mid.toNat (by omega) midLt low] at probe
          exact absurd probe (by simp)
    · refine ⟨first, by rw [bisect, if_neg more], by omega,
        fun index indexLt => below index (by omega), ?_⟩
      intro index indexGe indexLt
      exact above index (by omega) indexLt

end QemuGzvm.Library
