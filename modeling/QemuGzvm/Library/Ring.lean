import Mathlib.Data.List.Basic
import Mathlib.Data.Nat.ModEq

/-!
Contract: rings of `n` slots that are written one entry after the other.

Owns:
- `Holds`, what a ring holds after a list of entries was written to it, each at its
  own number modulo the number of slots;
- `LapCounter`, an index on a ring with a bit that flips on every lap, and its
  position on two laps.
-/

set_option autoImplicit false

namespace QemuGzvm.Library

universe u

namespace Ring

variable {α : Type u} {log : List α} {ring : List (Option α)}

/-- `ring` holds the last entries of `log`, entry `number` in slot `number` modulo
the number of slots, and its other slots were never written. -/
structure Holds (ring : List (Option α)) (log : List α) : Prop where
  kept : ∀ number, number < log.length → log.length ≤ number + ring.length →
    ring[number % ring.length]? = some log[number]?
  blank : ∀ slot, log.length ≤ slot → slot < ring.length → ring[slot]? = some none

theorem holds_nil (slots : Nat) : Holds (List.replicate slots none) ([] : List α) where
  kept := by simp
  blank := by
    intro slot _ inside
    rw [List.length_replicate] at inside
    simp [inside]

/-- Numbers less than one lap apart have different slots. -/
theorem mod_ne_of_lt {slots low high : Nat} (order : low < high)
    (close : high < low + slots) : low % slots ≠ high % slots := by
  intro same
  have divides : slots ∣ high - low := (Nat.modEq_iff_dvd' (Nat.le_of_lt order)).mp same
  have := Nat.le_of_dvd (by omega) divides
  omega

theorem Holds.write (holds : Holds ring log) (slots : 0 < ring.length) (entry : α) :
    Holds (ring.set (log.length % ring.length) (some entry)) (log ++ [entry]) := by
  have inside : log.length % ring.length < ring.length := Nat.mod_lt _ slots
  constructor
  · intro number below recent
    simp only [List.length_append, List.length_singleton, List.length_set] at below recent ⊢
    rcases Nat.lt_succ_iff_lt_or_eq.mp below with older | rfl
    · -- An older entry that is still due in the ring has another slot.
      rw [List.getElem?_set_ne (mod_ne_of_lt older (by omega)).symm,
        holds.kept number older (by omega), List.getElem?_append_left older]
    · rw [List.getElem?_set_self inside, List.getElem?_concat_length]
  · intro slot above inRing
    simp only [List.length_append, List.length_singleton, List.length_set] at above inRing
    rw [List.getElem?_set_ne (by rw [Nat.mod_eq_of_lt (by omega)]; omega)]
    exact holds.blank slot (by omega) inRing

/-- The slot of the next entry holds the entry written exactly one lap ago, if there
is one. -/
theorem Holds.next_slot (holds : Holds ring log) (slots : 0 < ring.length) :
    ring[log.length % ring.length]? =
      some (if ring.length ≤ log.length then log[log.length - ring.length]? else none) := by
  split
  · grind [Holds, Nat.mod_eq_sub_mod]
  · grind [Holds, Nat.mod_eq_of_lt]

end Ring

/-- An index on a ring and the bit that flips on every lap. -/
structure LapCounter where
  index : Nat
  wrap : Bool
deriving DecidableEq, Repr

namespace LapCounter

/-- The position on two laps of `slots` slots. -/
def position (slots : Nat) (counter : LapCounter) : Nat :=
  counter.index + if counter.wrap then 0 else slots

def advance (slots count : Nat) (counter : LapCounter) : LapCounter :=
  if slots ≤ counter.index + count then
    { index := counter.index + count - slots, wrap := !counter.wrap }
  else { counter with index := counter.index + count }

def retreat (slots count : Nat) (counter : LapCounter) : LapCounter :=
  if counter.index < count then
    { index := slots + counter.index - count, wrap := !counter.wrap }
  else { counter with index := counter.index - count }

variable {slots count : Nat} {counter : LapCounter}

theorem advance_index_lt (inside : counter.index < slots) (short : count ≤ slots) :
    (counter.advance slots count).index < slots := by
  unfold advance
  split
  · dsimp only
    omega
  · dsimp only
    omega

theorem retreat_index_lt (count : Nat) (inside : counter.index < slots) :
    (counter.retreat slots count).index < slots := by
  unfold retreat
  split
  · dsimp only
    omega
  · dsimp only
    omega

theorem position_advance (slots count : Nat) (counter : LapCounter) :
    (counter.advance slots count).position slots ≡ counter.position slots + count
      [MOD 2 * slots] := by
  obtain ⟨index, wrap⟩ := counter
  by_cases laps : slots ≤ index + count
  · cases wrap with
    | true =>
      -- Into the second lap: the position grows by `count`.
      have moved : (LapCounter.advance slots count ⟨index, true⟩).position slots =
          LapCounter.position slots ⟨index, true⟩ + count := by
        simp [advance, position, laps]
      rw [moved]
    | false =>
      -- Past the second lap: two laps are dropped.
      have moved : (LapCounter.advance slots count ⟨index, false⟩).position slots + 2 * slots =
          LapCounter.position slots ⟨index, false⟩ + count := by
        simp [advance, position, laps]
        omega
      rw [← moved]
      exact (Nat.add_mod_right _ _).symm
  · have moved : (LapCounter.advance slots count ⟨index, wrap⟩).position slots =
        LapCounter.position slots ⟨index, wrap⟩ + count := by
      simp only [advance, position, if_neg laps]
      omega
    rw [moved]

/-- Going back undoes going forward, as long as one lap at most is undone. -/
theorem position_retreat {slots count : Nat} (short : count ≤ slots) (counter : LapCounter) :
    (counter.retreat slots count).position slots + count ≡ counter.position slots
      [MOD 2 * slots] := by
  obtain ⟨index, wrap⟩ := counter
  by_cases laps : index < count
  · cases wrap with
    | true =>
      have moved : (LapCounter.retreat slots count ⟨index, true⟩).position slots + count =
          LapCounter.position slots ⟨index, true⟩ + 2 * slots := by
        simp [retreat, position, laps]
        omega
      rw [moved]
      exact Nat.add_mod_right _ _
    | false =>
      have moved : (LapCounter.retreat slots count ⟨index, false⟩).position slots + count =
          LapCounter.position slots ⟨index, false⟩ := by
        simp [retreat, position, laps]
        omega
      rw [moved]
  · have moved : (LapCounter.retreat slots count ⟨index, wrap⟩).position slots + count =
        LapCounter.position slots ⟨index, wrap⟩ := by
      simp only [retreat, position, if_neg laps]
      omega
    rw [moved]

/-- The counter at step `number` of a walk that starts with the bit set. -/
def ofNumber (slots number : Nat) : LapCounter :=
  { index := number % slots, wrap := decide (number / slots % 2 = 0) }

theorem ofNumber_advance (pos : 0 < slots) (number : Nat) (short : count ≤ slots) :
    (ofNumber slots number).advance slots count = ofNumber slots (number + count) := by
  have inside := Nat.mod_lt number pos
  have whole := Nat.div_add_mod number slots
  unfold advance
  split
  · next laps =>
    -- The walk enters the next lap.
    have next :
        number + count = number % slots + count - slots + slots * (number / slots + 1) := by
      rw [Nat.mul_succ]
      simp only [ofNumber] at laps
      omega
    have low : number % slots + count - slots < slots := by omega
    simp only [ofNumber, next, Nat.add_mul_mod_self_left, Nat.mod_eq_of_lt low,
      Nat.add_mul_div_left _ _ pos, Nat.div_eq_of_lt low, Nat.zero_add, LapCounter.mk.injEq,
      true_and]
    rw [← decide_not]
    exact decide_eq_decide.mpr (by omega)
  · next sameLap =>
    have next : number + count = number % slots + count + slots * (number / slots) := by omega
    have low : number % slots + count < slots := by
      simp only [ofNumber] at sameLap
      omega
    simp only [ofNumber, next, Nat.add_mul_mod_self_left, Nat.mod_eq_of_lt low,
      Nat.add_mul_div_left _ _ pos, Nat.div_eq_of_lt low, Nat.zero_add]

/-- A counter inside the ring is the one at its position. -/
theorem ofNumber_position (inside : counter.index < slots) :
    ofNumber slots (counter.position slots) = counter := by
  have pos := Nat.zero_lt_of_lt inside
  obtain ⟨index, wrap⟩ := counter
  cases wrap with
  | true =>
    simp [ofNumber, position, Nat.mod_eq_of_lt inside, Nat.div_eq_of_lt inside]
  | false =>
    simp [ofNumber, position, Nat.mod_eq_of_lt inside, Nat.div_eq_of_lt inside,
      Nat.add_div_right _ pos]

/-- The index of a walk is its number on the ring. -/
theorem wrap_add_mod (pos : 0 < slots) (number : Nat) (short : count ≤ slots) :
    (if slots ≤ number % slots + count then number % slots + count - slots
      else number % slots + count) = (number + count) % slots := by
  have moved := congrArg LapCounter.index (ofNumber_advance pos number short)
  rw [advance, apply_ite LapCounter.index] at moved
  exact moved

/-- A step that stays below the number of slots stays on its lap. -/
theorem div_eq_of_sameLap (number : Nat) (sameLap : number % slots + count < slots) :
    (number + count) / slots = number / slots := by
  have next : number + count = number % slots + count + slots * (number / slots) := by
    have whole := Nat.div_add_mod number slots
    omega
  rw [next, Nat.add_mul_div_left _ _ (Nat.zero_lt_of_lt sameLap), Nat.div_eq_of_lt sameLap,
    Nat.zero_add]

end LapCounter

end QemuGzvm.Library
