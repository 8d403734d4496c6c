import Mathlib.Data.List.Nodup
import Mathlib.Tactic.Ring

/-!
Contract: byte-addressed memory and the little-endian values in it.

Owns:
- `load` and `store` of a value of any number of bytes;
- that a store is read back, leaves the bytes outside its range, and that a load depends
  on its own bytes only;
- `storeAll`, which scatters bytes over a list of addresses, and what is then found at a piece of
  that list.

Addresses are natural numbers, so that a range never wraps around.
-/

set_option autoImplicit false

namespace QemuGzvm.Library

abbrev Bytes := Nat → UInt8

namespace Bytes

/-- The little-endian value of `n` bytes from `addr` on. -/
def load (bytes : Bytes) (addr : Nat) : Nat → Nat
  | 0 => 0
  | n + 1 => (bytes addr).toNat + 256 * load bytes (addr + 1) n

/-- Writes the low `n` bytes of a value, the lowest one first. -/
def store (bytes : Bytes) (addr n value : Nat) : Bytes := fun i =>
  if addr ≤ i ∧ i < addr + n then UInt8.ofNat (value / 256 ^ (i - addr)) else bytes i

variable {bytes other : Bytes} {addr n value : Nat} {i : Nat} {addrs : List Nat} {mem : Bytes}

theorem store_outside (outside : i < addr ∨ addr + n ≤ i) :
    store bytes addr n value i = bytes i := by
  unfold store
  rw [if_neg (by omega)]

theorem store_inside (low : addr ≤ i) (high : i < addr + n) :
    store bytes addr n value i = UInt8.ofNat (value / 256 ^ (i - addr)) := by
  unfold store
  rw [if_pos ⟨low, high⟩]

theorem load_congr (same : ∀ i, addr ≤ i → i < addr + n → bytes i = other i) :
    load bytes addr n = load other addr n := by
  induction n generalizing addr with
  | zero => rfl
  | succ n ih =>
    grind [load]

theorem load_store (bytes : Bytes) (addr n value : Nat) :
    load (store bytes addr n value) addr n = value % 256 ^ n := by
  induction n generalizing addr value bytes with
  | zero => exact (Nat.mod_one value).symm
  | succ n ih =>
    have first : (store bytes addr (n + 1) value addr).toNat = value % 256 := by
      rw [store_inside (Nat.le_refl _) (by omega), Nat.sub_self, Nat.pow_zero, Nat.div_one,
        UInt8.toNat_ofNat']
    have rest : load (store bytes addr (n + 1) value) (addr + 1) n = value / 256 % 256 ^ n := by
      rw [← ih bytes (addr + 1) (value / 256)]
      apply load_congr
      intro i low high
      rw [store_inside (by omega) (by omega), store_inside low high, Nat.div_div_eq_div_mul,
        ← Nat.pow_succ', show i - addr = (i - (addr + 1)).succ by omega]
    rw [load, first, rest, Nat.pow_succ', Nat.mod_mul]

/-! ### Scattered bytes -/

/-- Stores bytes at a list of addresses, as long as there are both. -/
def storeAll : Bytes → List Nat → List UInt8 → Bytes
  | mem, addr :: addrs, byte :: bytes => storeAll (Function.update mem addr byte) addrs bytes
  | mem, _, _ => mem

theorem storeAll_nil (mem : Bytes) (addrs : List Nat) : storeAll mem addrs [] = mem := by
  cases addrs <;> rfl

theorem storeAll_append (mem : Bytes) (first second : List Nat) (buf : List UInt8) :
    storeAll mem (first ++ second) buf =
      storeAll (storeAll mem first (buf.take first.length)) second (buf.drop first.length) := by
  induction first generalizing mem buf with
  | nil =>
    rw [List.nil_append, List.length_nil, List.take_zero, List.drop_zero, storeAll_nil]
  | cons addr first ih =>
    cases buf with
    | nil => simp [storeAll_nil]
    | cons byte buf =>
      rw [List.cons_append, List.length_cons, List.take_succ_cons, List.drop_succ_cons,
        storeAll, storeAll, ih]

theorem storeAll_take (mem : Bytes) (addrs : List Nat) (buf : List UInt8) :
    storeAll mem (addrs.take buf.length) buf = storeAll mem addrs buf := by
  induction addrs generalizing mem buf with
  | nil => rw [List.take_nil]
  | cons addr addrs ih =>
    cases buf with
    | nil => rfl
    | cons byte buf => exact ih _ buf

theorem storeAll_of_not_mem {addr : Nat} (outside : addr ∉ addrs) (mem : Bytes) (buf : List UInt8) :
    storeAll mem addrs buf addr = mem addr := by
  induction addrs generalizing mem buf with
  | nil => rfl
  | cons first addrs ih =>
    cases buf with
    | nil => rfl
    | cons byte buf =>
      rw [List.mem_cons, not_or] at outside
      rw [storeAll, ih outside.2, Function.update_of_ne outside.1]

theorem map_storeAll (apart : addrs.Nodup) (mem : Bytes) (buf : List UInt8) :
    (addrs.take buf.length).map (storeAll mem addrs buf) = buf.take addrs.length := by
  induction addrs generalizing mem buf with
  | nil => simp
  | cons addr addrs ih =>
    cases buf with
    | nil => rfl
    | cons byte buf =>
      rw [List.nodup_cons] at apart
      rw [List.length_cons, List.take_succ_cons, List.map_cons, storeAll,
        ih apart.2, storeAll_of_not_mem apart.1, Function.update_self,
        List.length_cons, List.take_succ_cons]

/-- A store in two pieces: at the addresses of the first list, and then at those of the second. -/
theorem storeAll_split (mem : Bytes) (first second : List Nat) (buf : List UInt8) :
    storeAll mem (first ++ second) buf =
      storeAll (storeAll mem (first.take buf.length) (buf.take (min first.length buf.length)))
        second (buf.drop (min first.length buf.length)) := by
  have short : first.take (buf.take first.length).length = first.take buf.length := by
    rw [List.length_take, ← List.take_take, List.take_of_length_le]
    rw [List.length_take]
    exact Nat.min_le_right _ _
  rw [storeAll_append, ← storeAll_take mem first, short]
  rcases Nat.le_total first.length buf.length with fits | long
  · rw [Nat.min_eq_left fits]
  · rw [Nat.min_eq_right long, List.take_of_length_le long, List.take_of_length_le (Nat.le_refl _),
      List.drop_of_length_le long, List.drop_of_length_le (Nat.le_refl _)]

/-- The bytes at `count` of the addresses, from place `start` on. -/
def readPiece (mem : Bytes) (addrs : List Nat) (start count : Nat) : List UInt8 :=
  ((addrs.drop start).take count).map mem

theorem readPiece_add (mem : Bytes) (addrs : List Nat) (start first second : Nat) :
    readPiece mem addrs start (first + second) =
      readPiece mem addrs start first ++ readPiece mem addrs (start + first) second := by
  rw [readPiece, readPiece, readPiece, List.take_add, List.map_append, List.drop_drop]

theorem take_drop_readPiece {whole start count : Nat} (inside : start + count ≤ whole) :
    ((readPiece mem addrs 0 whole).drop start).take count = readPiece mem addrs start count := by
  grind [readPiece, List.map_drop, List.map_take, List.drop_take]

theorem readPiece_congr {other : Bytes} (same : ∀ addr ∈ addrs, mem addr = other addr)
    (start count : Nat) :
    readPiece mem addrs start count = readPiece other addrs start count :=
  List.map_congr_left fun addr member =>
    same addr (List.mem_of_mem_drop (List.mem_of_mem_take member))

section Pieces

variable (apart : addrs.Nodup) {buf : List UInt8} {count start : Nat}
include apart

/-- What is stored in a piece of the addresses is found there. -/
theorem readPiece_storeAll (stored : count ≤ buf.length) (room : start + count ≤ addrs.length)
    (mem : Bytes) :
    readPiece (storeAll mem (addrs.drop start) buf) addrs start count = buf.take count := by
  have whole := map_storeAll (apart.sublist (List.drop_sublist start addrs)) mem buf
  have front := congrArg (List.take count) whole
  rw [← List.map_take, List.take_take, List.take_take, List.length_drop,
    Nat.min_eq_left stored, Nat.min_eq_left (by omega)] at front
  exact front

/-- A piece of the addresses keeps its bytes when another piece is stored to. -/
theorem readPiece_storeAll_other {at_ : Nat}
    (other : start + count ≤ at_ ∨ at_ + buf.length ≤ start) (mem : Bytes) :
    readPiece (storeAll mem (addrs.drop at_) buf) addrs start count =
      readPiece mem addrs start count := by
  rw [readPiece, ← storeAll_take]
  apply List.map_congr_left
  intro addr inFirst
  apply storeAll_of_not_mem
  intro inSecond
  obtain ⟨i, iLt, isFirst⟩ := List.mem_iff_getElem.mp inFirst
  obtain ⟨j, jLt, isSecond⟩ := List.mem_iff_getElem.mp inSecond
  rw [List.getElem_take, List.getElem_drop] at isFirst isSecond
  have sameIndex := (apart.getElem_inj_iff).mp (isFirst.trans isSecond.symm)
  rw [List.length_take] at iLt jLt
  omega

end Pieces

end Bytes

end QemuGzvm.Library
