import QemuGzvm.Library.ByteMemory
import Mathlib.Data.List.Flatten

/-!
Contract: scatter-gather lists (`util/iov.c`).

Owns:
- `IoVec` and the bytes that a list of them stands for, by address;
- `iov_size`, `iov_to_buf`, `iov_from_buf`, `iov_copy`, and `iov_discard_front` and `iov_discard_back` with their undo;
- what is discarded and what is left, in terms of the addresses and of the sizes.

Discarding changes at most one entry of the array, the one in which the discarded bytes end; the
entries before it stay in the array and only the caller's view leaves them out.
-/

namespace QemuGzvm.Util

open QemuGzvm.Library QemuGzvm.Library.Bytes

structure IoVec where
  base : Nat
  len : Nat
deriving DecidableEq, Repr

namespace IoVec

def addresses (vec : IoVec) : List Nat := List.range' vec.base vec.len

def dropFront (vec : IoVec) (bytes : Nat) : IoVec := ⟨vec.base + bytes, vec.len - bytes⟩

def dropBack (vec : IoVec) (bytes : Nat) : IoVec := ⟨vec.base, vec.len - bytes⟩

end IoVec

/-- The addresses of all bytes, in order. -/
def iovAddresses (iov : List IoVec) : List Nat := iov.flatMap IoVec.addresses

def iovSize (iov : List IoVec) : Nat := (iov.map IoVec.len).sum

/-- `iov_to_buf`: the bytes that it copies. -/
def iovToBuf (mem : Bytes) : List IoVec → Nat → Nat → List UInt8
  | [], _, _ => []
  | cur :: rest, offset, bytes =>
    if offset = 0 ∧ bytes = 0 then []
    else if offset < cur.len then
      let len := min (cur.len - offset) bytes
      (List.range' (cur.base + offset) len).map mem ++ iovToBuf mem rest 0 (bytes - len)
    else iovToBuf mem rest (offset - cur.len) bytes

/-- `iov_from_buf`: memory afterwards, and the number of bytes stored. -/
def iovFromBuf : Bytes → List IoVec → Nat → List UInt8 → Bytes × Nat
  | mem, [], _, _ => (mem, 0)
  | mem, cur :: rest, offset, buf =>
    if offset = 0 ∧ buf.length = 0 then (mem, 0)
    else if offset < cur.len then
      let len := min (cur.len - offset) buf.length
      let later := iovFromBuf
        (storeAll mem (List.range' (cur.base + offset) len) (buf.take len)) rest 0 (buf.drop len)
      (later.1, len + later.2)
    else iovFromBuf mem rest (offset - cur.len) buf

/-- `iov_copy`: the entries of the copy, at most `count`. -/
def iovCopy : Nat → List IoVec → Nat → Nat → List IoVec
  | 0, _, _, _ => []
  | _ + 1, [], _, _ => []
  | count + 1, cur :: rest, offset, bytes =>
    if offset = 0 ∧ bytes = 0 then []
    else if cur.len ≤ offset then iovCopy (count + 1) rest (offset - cur.len) bytes
    else
      let len := min bytes (cur.len - offset)
      ⟨cur.base + offset, len⟩ :: iovCopy count rest 0 (bytes - len)

/-- What is left after discarding: the array, the caller's view of it, and the entry to put back
with `iov_discard_undo`, by its place. -/
structure IovDiscard where
  whole : List IoVec
  rest : List IoVec
  undo : Option (Nat × IoVec)
deriving DecidableEq, Repr

/-- The loop of `iov_discard_front_undoable` and `iov_discard_back_undoable`, over the entries in
the order in which they are discarded. -/
def discardLoop (cut : IoVec → Nat → IoVec) : Nat → List IoVec → IovDiscard
  | _, [] => ⟨[], [], none⟩
  | bytes, cur :: others =>
    if bytes < cur.len then ⟨cut cur bytes :: others, cut cur bytes :: others, some (0, cur)⟩
    else
      let later := discardLoop cut (bytes - cur.len) others
      ⟨cur :: later.whole, later.rest, later.undo.map fun (place, orig) => (place + 1, orig)⟩

def iovDiscardFront (iov : List IoVec) (bytes : Nat) : IovDiscard :=
  discardLoop IoVec.dropFront bytes iov

def iovDiscardBack (iov : List IoVec) (bytes : Nat) : IovDiscard :=
  let last := discardLoop IoVec.dropBack bytes iov.reverse
  ⟨last.whole.reverse, last.rest.reverse,
    last.undo.map fun (place, orig) => (iov.length - 1 - place, orig)⟩

def iovDiscardUndo (undo : Option (Nat × IoVec)) (iov : List IoVec) : List IoVec :=
  match undo with
  | none => iov
  | some (place, orig) => iov.set place orig

/-! ### Sizes and addresses -/

@[simp] theorem iovSize_nil : iovSize [] = 0 := rfl

@[simp] theorem iovSize_cons (vec : IoVec) (iov : List IoVec) :
    iovSize (vec :: iov) = vec.len + iovSize iov := rfl

@[simp] theorem iovSize_append (first second : List IoVec) :
    iovSize (first ++ second) = iovSize first + iovSize second := by
  simp [iovSize]

@[simp] theorem iovSize_reverse (iov : List IoVec) : iovSize iov.reverse = iovSize iov := by
  simp [iovSize]

@[simp] theorem iovAddresses_nil : iovAddresses [] = [] := rfl

@[simp] theorem iovAddresses_cons (vec : IoVec) (iov : List IoVec) :
    iovAddresses (vec :: iov) = vec.addresses ++ iovAddresses iov := rfl

@[simp] theorem addresses_length (vec : IoVec) : vec.addresses.length = vec.len :=
  List.length_range'

theorem iovAddresses_length (iov : List IoVec) : (iovAddresses iov).length = iovSize iov := by
  induction iov with
  | nil => rfl
  | cons vec iov ih => simp [ih]

theorem piece_eq (cur : IoVec) (offset bytes : Nat) :
    List.range' (cur.base + offset) (min bytes (cur.len - offset)) =
      (cur.addresses.drop offset).take bytes := by
  rw [IoVec.addresses, List.drop_range', Nat.mul_one]
  grind

theorem drop_cons_inside (cur : IoVec) (rest : List IoVec) {offset : Nat}
    (inside : offset < cur.len) :
    (iovAddresses (cur :: rest)).drop offset = cur.addresses.drop offset ++ iovAddresses rest := by
  apply List.drop_append_of_le_length
  rw [addresses_length]
  exact Nat.le_of_lt inside

theorem drop_cons (cur : IoVec) (rest : List IoVec) {offset : Nat} (outside : cur.len ≤ offset) :
    (iovAddresses (cur :: rest)).drop offset = (iovAddresses rest).drop (offset - cur.len) := by
  rw [iovAddresses_cons, List.drop_append, List.drop_of_length_le, List.nil_append,
    addresses_length]
  rwa [addresses_length]

theorem iovToBuf_eq (mem : Bytes) (iov : List IoVec) (offset bytes : Nat) :
    iovToBuf mem iov offset bytes = (((iovAddresses iov).drop offset).take bytes).map mem := by
  fun_induction iovToBuf mem iov offset bytes with
  | case1 => simp
  | case2 cur rest offset bytes done => simp [done]
  | case3 cur rest offset bytes more inside len ih =>
    have left : bytes - len = bytes - (cur.len - offset) := by
      omega
    rw [ih, drop_cons_inside cur rest inside, List.take_append, List.map_append, ← piece_eq,
      Nat.min_comm bytes, List.drop_zero, List.length_drop, addresses_length, left]
  | case4 cur rest offset bytes more outside ih => rw [ih, drop_cons cur rest (by omega)]

theorem iovToBuf_length (mem : Bytes) (iov : List IoVec) (offset bytes : Nat) :
    (iovToBuf mem iov offset bytes).length = min bytes (iovSize iov - offset) := by
  rw [iovToBuf_eq, List.length_map, List.length_take, List.length_drop, iovAddresses_length]

/-! ### Storing -/

theorem iovFromBuf_eq (mem : Bytes) (iov : List IoVec) (offset : Nat) (buf : List UInt8) :
    iovFromBuf mem iov offset buf =
      (storeAll mem ((iovAddresses iov).drop offset) buf,
        min buf.length (iovSize iov - offset)) := by
  fun_induction iovFromBuf mem iov offset buf with
  | case1 => simp [storeAll]
  | case2 mem cur rest offset buf done =>
    rw [List.length_eq_zero_iff.mp done.2, storeAll_nil]
    simp
  | case3 mem cur rest offset buf more inside len later ih =>
    have count : len + min (buf.length - len) (iovSize rest - 0) =
        min buf.length (cur.len + iovSize rest - offset) := by
      omega
    rw [drop_cons_inside cur rest inside, storeAll_split, ← piece_eq, List.length_drop,
      addresses_length, iovSize_cons, ← count, Nat.min_comm buf.length, ← List.length_drop]
    simp only [later, ih, List.drop_zero]
    rfl
  | case4 mem cur rest offset buf more outside ih =>
    rw [ih, drop_cons cur rest (by omega), iovSize_cons]
    congr 2
    omega

variable {bytes : Nat} {iov : List IoVec}

/-- `iov_copy` finds room for every byte when it has as many entries as bytes. -/
theorem iovAddresses_iovCopy {count : Nat} (enough : bytes ≤ count) (iov : List IoVec)
    (offset : Nat) :
    iovAddresses (iovCopy count iov offset bytes) =
      ((iovAddresses iov).drop offset).take bytes := by
  fun_induction iovCopy count iov offset bytes with
  | case1 => simp [Nat.le_zero.mp enough]
  | case2 => simp
  | case3 count cur rest offset bytes done => simp [done]
  | case4 count cur rest offset bytes more outside ih => rw [ih enough, drop_cons cur rest outside]
  | case5 count cur rest offset bytes more inside len ih =>
    have left : bytes - len = bytes - (cur.len - offset) := by
      omega
    rw [iovAddresses_cons, ih (by omega), drop_cons_inside cur rest (by omega), List.take_append,
      ← piece_eq, List.drop_zero, List.length_drop, addresses_length, left, IoVec.addresses]

/-! ### Discarding -/

/-- A way to shorten an entry by a number of bytes. -/
structure Shortens (cut : IoVec → Nat → IoVec) : Prop where
  len : ∀ vec bytes, (cut vec bytes).len = vec.len - bytes
  zero : ∀ vec, cut vec 0 = vec

theorem shortens_dropFront : Shortens IoVec.dropFront := ⟨fun _ _ => rfl, fun _ => rfl⟩

theorem shortens_dropBack : Shortens IoVec.dropBack := ⟨fun _ _ => rfl, fun _ => rfl⟩

section Loop

variable {cut : IoVec → Nat → IoVec} (shortens : Shortens cut) {bytes : Nat} {iov : List IoVec}

include shortens

theorem discardLoop_rest_size (bytes : Nat) (iov : List IoVec) :
    iovSize (discardLoop cut bytes iov).rest = iovSize iov - bytes := by
  fun_induction discardLoop cut bytes iov with
  | case1 => simp
  | case2 bytes cur others inside =>
    rw [iovSize_cons, iovSize_cons, shortens.len]
    omega
  | case3 bytes cur others outside later ih =>
    rw [ih, iovSize_cons]
    omega

/-- The array is the same exactly if the bytes end where an entry ends. -/
theorem discardLoop_whole_eq_iff (enough : bytes ≤ iovSize iov) :
    (discardLoop cut bytes iov).whole = iov ↔ ∃ count, iovSize (iov.take count) = bytes := by
  fun_induction discardLoop cut bytes iov with
  | case1 bytes => simp [Nat.le_zero.mp enough]
  | case2 bytes cur others inside =>
    constructor
    · intro same
      have len := congrArg IoVec.len (List.cons_eq_cons.mp same).1
      rw [shortens.len] at len
      exact ⟨0, by simp only [List.take_zero, iovSize_nil]; omega⟩
    · rintro ⟨_ | count, ends⟩
      · rw [← ends]
        exact congrArg (· :: others) (shortens.zero cur)
      · rw [List.take_succ_cons, iovSize_cons] at ends
        omega
  | case3 bytes cur others outside later ih =>
    rw [iovSize_cons] at enough
    rw [List.cons_eq_cons, and_iff_right rfl, ih (by omega)]
    constructor
    · intro ⟨count, ends⟩
      refine ⟨count + 1, ?_⟩
      rw [List.take_succ_cons, iovSize_cons, ends]
      omega
    · rintro ⟨_ | count, ends⟩
      · exact ⟨0, by rw [← ends]; simp⟩
      · rw [List.take_succ_cons, iovSize_cons] at ends
        exact ⟨count, by omega⟩

theorem discardLoop_whole_lt (changed : (discardLoop cut bytes iov).whole ≠ iov) :
    iovSize (discardLoop cut bytes iov).whole < iovSize iov := by
  fun_induction discardLoop cut bytes iov with
  | case1 => exact absurd rfl changed
  | case2 bytes cur others inside =>
    have some : bytes ≠ 0 := by
      rintro rfl
      exact changed (by rw [shortens.zero])
    rw [iovSize_cons, iovSize_cons, shortens.len]
    omega
  | case3 bytes cur others outside later ih =>
    exact Nat.add_lt_add_left (ih fun same => changed (by rw [same])) _

end Loop

theorem iovDiscardFront_rest_size (iov : List IoVec) (bytes : Nat) :
    iovSize (iovDiscardFront iov bytes).rest = iovSize iov - bytes :=
  discardLoop_rest_size shortens_dropFront bytes iov

theorem iovDiscardBack_whole_eq_iff (enough : bytes ≤ iovSize iov) :
    (iovDiscardBack iov bytes).whole = iov ↔ ∃ count, iovSize (iov.drop count) = bytes := by
  have loop := discardLoop_whole_eq_iff shortens_dropBack
    (show bytes ≤ iovSize iov.reverse by rw [iovSize_reverse]; exact enough)
  change (discardLoop IoVec.dropBack bytes iov.reverse).whole.reverse = iov ↔ _
  rw [List.reverse_eq_iff, loop]
  constructor
  · intro ⟨count, ends⟩
    rw [List.take_reverse, iovSize_reverse] at ends
    exact ⟨_, ends⟩
  · intro ⟨count, ends⟩
    by_cases inside : count ≤ iov.length
    · refine ⟨iov.length - count, ?_⟩
      rw [List.take_reverse, iovSize_reverse, Nat.sub_sub_self inside]
      exact ends
    · rw [List.drop_of_length_le (by omega), iovSize_nil] at ends
      exact ⟨0, by rw [List.take_zero, iovSize_nil, ends]⟩

theorem iovDiscardBack_whole_lt (changed : (iovDiscardBack iov bytes).whole ≠ iov) :
    iovSize (iovDiscardBack iov bytes).whole < iovSize iov := by
  have loop := @discardLoop_whole_lt _ shortens_dropBack bytes iov.reverse
  rw [iovSize_reverse] at loop
  change iovSize (discardLoop IoVec.dropBack bytes iov.reverse).whole.reverse < _
  rw [iovSize_reverse]
  apply loop
  intro same
  apply changed
  change (discardLoop IoVec.dropBack bytes iov.reverse).whole.reverse = iov
  rw [same, List.reverse_reverse]

end QemuGzvm.Util
