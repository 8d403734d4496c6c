import Mathlib.Algebra.Order.Ring.Int

/-!
Contract: how requests are cut for a driver (`bdrv_init_padding`, `bdrv_pad_request`,
`bdrv_co_do_zero_pwritev`, and the pieces of `bdrv_co_do_pwrite_zeroes` of `block/io.c`).

Owns:
- the limits of a node and the requests that `bdrv_check_qiov_request` accepts;
- the padding of a request, and the aligned parts that a write is made of;
- the pieces of an aligned part.
-/

namespace QemuGzvm.Block

/-! ### Limits -/

def intMax : Nat := 2 ^ 31 - 1

def int64Max : Nat := 2 ^ 63 - 1

/-- `BDRV_MAX_LENGTH`: `INT64_MAX` down to a multiple of `1 << 30`. -/
def bdrvMaxLength : Nat := int64Max / 2 ^ 30 * 2 ^ 30

/-- `BDRV_REQUEST_MAX_BYTES`: `INT_MAX` down to whole sectors. -/
def bdrvRequestMaxBytes : Nat := intMax / 2 ^ 9 * 2 ^ 9

def maxBounceBuffer : Nat := 32768 * 2 ^ 9

def alignDown (n align : Nat) : Nat := n / align * align

def minNonZero (a b : Nat) : Nat := if a = 0 then b else if b = 0 then a else min a b

/-- The limits in `bs->bl` that writes are cut by, such as `bdrv_refresh_limits` leaves them:
the assertions on the sizes of pieces hold. -/
structure BlockLimits where
  requestAlignment : Nat
  maxTransfer : Nat
  pwriteZeroesAlignment : Nat
  maxPwriteZeroes : Nat
  aligned : 0 < requestAlignment
  transfers : 0 < alignDown (minNonZero maxTransfer intMax) requestAlignment
  zeroes : 0 < alignDown (minNonZero maxPwriteZeroes int64Max)
    (max pwriteZeroesAlignment requestAlignment)

namespace BlockLimits

variable (bl : BlockLimits)

/-- `max_transfer` in `bdrv_aligned_pwritev`. -/
def transfer : Nat := alignDown (minNonZero bl.maxTransfer intMax) bl.requestAlignment

/-- `max_transfer` in `bdrv_co_do_pwrite_zeroes`. -/
def bounce : Nat := minNonZero bl.maxTransfer maxBounceBuffer

def zeroAlignment : Nat := max bl.pwriteZeroesAlignment bl.requestAlignment

def maxWriteZeroes : Nat := alignDown (minNonZero bl.maxPwriteZeroes int64Max) bl.zeroAlignment

theorem bounce_pos : 0 < bl.bounce := by
  unfold bounce minNonZero
  split
  · decide
  · split
    · omega
    · exact Nat.lt_min.mpr ⟨by omega, by omega⟩

theorem zeroAlignment_pos : 0 < bl.zeroAlignment := Nat.lt_of_lt_of_le bl.aligned (Nat.le_max_right _ _)

end BlockLimits

/-! ### Padding -/

structure BdrvRequestPadding where
  head : Nat
  tail : Nat
  bufLen : Nat
  mergeReads : Bool
deriving DecidableEq, Repr

def bdrvInitPadding (align offset bytes : Nat) : Option BdrvRequestPadding :=
  let head := offset % align
  let tail := if (offset + bytes) % align = 0 then 0 else align - (offset + bytes) % align
  if head = 0 ∧ tail = 0 then none
  else
    let sum := head + bytes + tail
    let bufLen := if align < sum ∧ head ≠ 0 ∧ tail ≠ 0 then 2 * align else align
    some ⟨head, tail, bufLen, decide (sum = bufLen)⟩

/-- What one call of `bdrv_aligned_pwritev` writes. -/
structure AlignedPart where
  offset : Nat
  bytes : Nat
  zeroWrite : Bool
deriving DecidableEq, Repr

def dataPart (align offset bytes : Nat) : AlignedPart :=
  match bdrvInitPadding align offset bytes with
  | none => ⟨offset, bytes, false⟩
  | some pad => ⟨offset - pad.head, bytes + pad.head + pad.tail, false⟩

/-- The aligned middle and the tail of a zero write, in `bdrv_co_do_zero_pwritev`. -/
def zeroRest (align offset bytes : Nat) : List AlignedPart :=
  let middle := alignDown bytes align
  (if align ≤ bytes then [⟨offset, middle, true⟩] else []) ++
    (if bytes - (if align ≤ bytes then middle else 0) = 0 then []
    else [⟨offset + (if align ≤ bytes then middle else 0), align, false⟩])

def zeroParts (align offset bytes : Nat) : List AlignedPart :=
  match bdrvInitPadding align offset bytes with
  | none => zeroRest align offset bytes
  | some pad =>
    if pad.head ≠ 0 ∨ pad.mergeReads then
      let writeBytes := if pad.mergeReads then pad.bufLen else align
      ⟨alignDown offset align, writeBytes, false⟩ ::
        (if pad.mergeReads then []
        else zeroRest align (offset + (writeBytes - pad.head)) (bytes - (writeBytes - pad.head)))
    else zeroRest align offset bytes

/-! ### How many parts -/

theorem alignDown_eq (n align : Nat) : alignDown n align = n - n % align := by
  have parts := Nat.div_add_mod n align
  rw [alignDown, Nat.mul_comm]
  omega

variable {align bytes offset : Nat}

theorem zeroRest_length (offset : Nat) (low : 0 < align) :
    (zeroRest align offset bytes).length =
      (if align ≤ bytes then 1 else 0) + if bytes % align = 0 then 0 else 1 := by
  rw [zeroRest, alignDown_eq]
  by_cases long : align ≤ bytes
  · grind
  · have same : bytes % align = bytes := Nat.mod_eq_of_lt (by omega)
    simp only [if_neg long, List.length_append, List.length_nil, same, Nat.sub_zero]
    by_cases none : bytes = 0
    · rw [if_pos none, if_pos none, List.length_nil]
    · rw [if_neg none, if_neg none, List.length_singleton]

theorem zeroRest_pos (low : 0 < align) : ∀ part ∈ zeroRest align offset bytes, 0 < part.bytes := by
  intro part member
  rw [zeroRest, alignDown_eq] at member
  by_cases long : align ≤ bytes
  · have small := Nat.mod_lt bytes low
    simp only [if_pos long] at member
    rcases List.mem_append.mp member with isMiddle | isTail
    · obtain rfl := List.mem_singleton.mp isMiddle
      dsimp only
      omega
    · grind
  · grind

theorem bdrvInitPadding_some {pad : BdrvRequestPadding}
    (isPad : bdrvInitPadding align offset bytes = some pad) :
    pad.head = offset % align ∧
    pad.tail = (if (offset + bytes) % align = 0 then 0 else align - (offset + bytes) % align) ∧
    (pad.head ≠ 0 ∨ pad.tail ≠ 0) ∧ (pad.bufLen = align ∨ pad.bufLen = 2 * align) ∧
    (pad.mergeReads = true ↔ pad.head + bytes + pad.tail = align ∨
      (pad.head + bytes + pad.tail = 2 * align ∧ pad.head ≠ 0 ∧ pad.tail ≠ 0)) := by
  grind [bdrvInitPadding]

theorem bdrvInitPadding_none (isNone : bdrvInitPadding align offset bytes = none)
    (low : 0 < align) : offset % align = 0 ∧ bytes % align = 0 := by
  unfold bdrvInitPadding at isNone
  dsimp only at isNone
  generalize isTail : (if (offset + bytes) % align = 0 then 0
    else align - (offset + bytes) % align) = tail at isNone
  split at isNone
  · next aligned =>
    refine ⟨aligned.1, ?_⟩
    have small := Nat.mod_lt (offset + bytes) low
    have whole : (offset + bytes) % align = 0 := by
      rw [aligned.2] at isTail
      split at isTail
      · assumption
      · omega
    rw [Nat.add_mod, aligned.1, Nat.zero_add, Nat.mod_mod] at whole
    exact whole
  · cases isNone

theorem zeroParts_pos (low : 0 < align) :
    ∀ part ∈ zeroParts align offset bytes, 0 < part.bytes := by
  intro part member
  unfold zeroParts at member
  split at member
  · exact zeroRest_pos low part member
  · next pad isPad =>
    have bufLen := (bdrvInitPadding_some isPad).2.2.2.1
    split at member
    · grind [zeroRest_pos]
    · exact zeroRest_pos low part member

theorem bdrvInitPadding_empty (aligned : offset % align = 0) :
    bdrvInitPadding align offset 0 = none := by
  simp [bdrvInitPadding, aligned]

theorem dataPart_bytes (align offset bytes : Nat) :
    bytes ≤ (dataPart align offset bytes).bytes := by
  unfold dataPart
  split
  · exact Nat.le_refl bytes
  · exact Nat.le_trans (Nat.le_add_right _ _) (Nat.le_add_right _ _)

section ZeroParts

variable (low : 0 < align) {pad : BdrvRequestPadding}
  (isPad : bdrvInitPadding align offset bytes = some pad)

theorem zeroParts_padded (isPad : bdrvInitPadding align offset bytes = some pad) :
    zeroParts align offset bytes =
      if pad.head ≠ 0 ∨ pad.mergeReads then
        ⟨alignDown offset align, if pad.mergeReads then pad.bufLen else align, false⟩ ::
          (if pad.mergeReads then []
          else zeroRest align (offset + (align - pad.head)) (bytes - (align - pad.head)))
      else zeroRest align offset bytes := by
  grind [zeroParts]

include low isPad

/-- The tail of a request that is not read together with its head is a part of its own. -/
theorem zeroParts_tail (nonempty : bytes ≠ 0) (apart : pad.mergeReads = false)
    (head : pad.head = 0) : (zeroParts align offset bytes).length ≠ 1 := by
  obtain ⟨isHead, isTail, unaligned, -, merged⟩ := bdrvInitPadding_some isPad
  have isEnd : (offset + bytes) % align = bytes % align := by
    rw [Nat.add_mod, ← isHead, head, Nat.zero_add, Nat.mod_mod]
  have long : align ≤ bytes := by
    grind [Nat.mod_eq_of_lt]
  have cut : bytes % align ≠ 0 := by
    intro whole
    rw [isEnd, if_pos whole] at isTail
    omega
  rw [zeroParts_padded isPad, apart, if_neg (by simp [head]), zeroRest_length offset low,
    if_pos long, if_neg cut]
  decide

theorem zeroParts_head (apart : pad.mergeReads = false) (head : pad.head ≠ 0) :
    (zeroParts align offset bytes).length ≠ 1 := by
  obtain ⟨isHead, isTail, -, -, merged⟩ := bdrvInitPadding_some isPad
  have small := Nat.mod_lt offset low
  have isEnd : (offset + bytes) % align = (pad.head + bytes) % align := by
    rw [Nat.add_mod, ← isHead, Nat.add_mod_mod]
  have more : 0 < bytes - (align - pad.head) := by
    apply Nat.pos_of_ne_zero
    intro inside
    have together : pad.mergeReads = true := by
      apply merged.mpr
      left
      by_cases full : pad.head + bytes = align
      · rw [isEnd, full, Nat.mod_self, if_pos rfl] at isTail
        omega
      · rw [Nat.mod_eq_of_lt (by omega : pad.head + bytes < align)] at isEnd
        rw [isEnd, if_neg (by omega)] at isTail
        omega
    rw [apart] at together
    cases together
  have rest : (zeroRest align (offset + (align - pad.head))
      (bytes - (align - pad.head))).length ≠ 0 := by
    rw [zeroRest_length _ low]
    by_cases long : align ≤ bytes - (align - pad.head)
    · rw [if_pos long]
      omega
    · rw [if_neg long, Nat.mod_eq_of_lt (by omega), if_neg (by omega)]
      decide
  rw [zeroParts_padded isPad, if_pos (Or.inl head), apart, List.length_cons,
    if_neg Bool.false_ne_true]
  omega

end ZeroParts

theorem zeroParts_length_one (low : 0 < align) (nonempty : bytes ≠ 0) :
    (zeroParts align offset bytes).length = 1 ↔
      (bdrvInitPadding align offset bytes).all BdrvRequestPadding.mergeReads = true := by
  cases isPad : bdrvInitPadding align offset bytes with
  | none =>
    have aligned := bdrvInitPadding_none isPad low
    have long : align ≤ bytes := Nat.le_of_dvd (Nat.pos_of_ne_zero nonempty)
      (Nat.dvd_of_mod_eq_zero aligned.2)
    rw [zeroParts, isPad]
    rw [zeroRest_length offset low, if_pos long, if_pos aligned.2]
    exact iff_of_true rfl rfl
  | some pad =>
    grind [zeroParts_padded, zeroParts_tail, zeroParts_head]

/-! ### Pieces -/

/-- `num` in a turn of `bdrv_co_do_pwrite_zeroes`, before the driver is asked. -/
def zeroPiece (bl : BlockLimits) (head tail bytes : Nat) : Nat :=
  min bl.maxWriteZeroes
    (if head ≠ 0 then min (min bytes bl.bounce) (bl.zeroAlignment - head)
    else if tail ≠ 0 ∧ bl.zeroAlignment < bytes then bytes - tail
    else bytes)

theorem zeroPiece_pos (bl : BlockLimits) {head tail : Nat} (some : 0 < bytes)
    (headLow : head < bl.zeroAlignment) (tailLow : tail < bl.zeroAlignment) :
    0 < zeroPiece bl head tail bytes := by
  unfold zeroPiece
  apply Nat.lt_min.mpr
  refine ⟨bl.zeroes, ?_⟩
  split
  · exact Nat.lt_min.mpr ⟨Nat.lt_min.mpr ⟨some, bl.bounce_pos⟩, Nat.sub_pos_of_lt headLow⟩
  · split
    · next cut => omega
    · exact some

end QemuGzvm.Block
