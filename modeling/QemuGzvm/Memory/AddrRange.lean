import QemuGzvm.Library.CheckedArray

/-!
Contract: `Int128` and `AddrRange` (`include/qemu/int128.h`, the helpers at the
top of `system/memory.c`).

`Int128` is `Int`. No sum in the code leaves 128 bits: each adds or subtracts one
64-bit word per region on a path, and a path of `2^62` regions does not fit in
memory. `int128_get64` appears in its two readings, with the assertion and as a
truncation.
-/

namespace QemuGzvm.Memory

open QemuGzvm.Library

/-- `int128_get64`, which asserts that the value fits. -/
def int128Get64 (value : Int) : Checked Nat :=
  if 0 ≤ value ∧ value < 2 ^ 64 then .ok value.toNat else .error .assertion

/-- The low word, without an assertion. -/
def int128GetLo (value : Int) : Nat := (value % 2 ^ 64).toNat

theorem int128Get64_natCast {value : Nat} (fits : value < 2 ^ 64) :
    int128Get64 value = .ok value := by
  have range : (0 : Int) ≤ value ∧ (value : Int) < 2 ^ 64 := ⟨by omega, by exact_mod_cast fits⟩
  rw [int128Get64, if_pos range, Int.toNat_natCast]

theorem int128GetLo_of_range {value : Int} (low : 0 ≤ value) (high : value < 2 ^ 64) :
    (int128GetLo value : Int) = value := by
  rw [int128GetLo, Int.emod_eq_of_lt low high, Int.toNat_of_nonneg low]

structure AddrRange where
  start : Int
  size : Int
deriving DecidableEq, Repr

def addrrangeMake (start size : Int) : AddrRange := ⟨start, size⟩

def addrrangeEqual (r1 r2 : AddrRange) : Bool :=
  decide (r1.start = r2.start) && decide (r1.size = r2.size)

def addrrangeEnd (r : AddrRange) : Int := r.start + r.size

def addrrangeShift (range : AddrRange) (delta : Int) : AddrRange :=
  { range with start := range.start + delta }

def addrrangeContains (range : AddrRange) (addr : Int) : Bool :=
  decide (addr ≥ range.start) && decide (addr < addrrangeEnd range)

def addrrangeIntersects (r1 r2 : AddrRange) : Bool :=
  addrrangeContains r1 r2.start || addrrangeContains r2 r1.start

def addrrangeIntersection (r1 r2 : AddrRange) : AddrRange :=
  let start := max r1.start r2.start
  let stop := min (addrrangeEnd r1) (addrrangeEnd r2)
  addrrangeMake start (stop - start)

variable {addr : Int} {r1 r2 : AddrRange}

theorem addrrangeContains_iff {range : AddrRange} :
    addrrangeContains range addr = true ↔ range.start ≤ addr ∧ addr < addrrangeEnd range := by
  simp [addrrangeContains]

theorem addrrangeEqual_iff : addrrangeEqual r1 r2 = true ↔ r1 = r2 := by
  cases r1
  cases r2
  simp [addrrangeEqual]

/-- An address common to two ranges is in their intersection, whether or not the
code has checked that they meet. -/
theorem addrrangeIntersection_contains (r1 r2 : AddrRange) (addr : Int) :
    addrrangeContains (addrrangeIntersection r1 r2) addr = true ↔
      addrrangeContains r1 addr = true ∧ addrrangeContains r2 addr = true := by
  simp only [addrrangeContains_iff, addrrangeIntersection, addrrangeMake, addrrangeEnd]
  omega

theorem not_contains_of_not_intersects (apart : addrrangeIntersects r1 r2 = false)
    (inFirst : addrrangeContains r1 addr = true) : addrrangeContains r2 addr = false := by
  rw [Bool.eq_false_iff]
  intro inSecond
  rw [Bool.eq_false_iff, ne_eq, addrrangeIntersects, Bool.or_eq_true, addrrangeContains_iff,
    addrrangeContains_iff] at apart
  rw [addrrangeContains_iff] at inFirst inSecond
  omega

/-- The intersection of two ranges that meet has no negative size. -/
theorem addrrangeIntersection_size_nonneg (first : 0 ≤ r1.size) (second : 0 ≤ r2.size)
    (meets : addrrangeIntersects r1 r2 = true) :
    0 ≤ (addrrangeIntersection r1 r2).size := by
  simp only [addrrangeIntersects, Bool.or_eq_true, addrrangeContains_iff, addrrangeEnd] at meets
  simp only [addrrangeIntersection, addrrangeMake, addrrangeEnd]
  omega

end QemuGzvm.Memory
