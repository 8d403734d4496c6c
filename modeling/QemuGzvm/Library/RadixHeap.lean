import Mathlib.Algebra.Order.Ring.Nat

/-!
Contract: radix trees whose nodes live in an array, with paths that may skip levels.

Owns:
- the digits and the aligned blocks of a key;
- `RadixHeap` and `Walk`, the search for a key;
- labels: which level and which block of keys a node stands for. A walk from a
  slot stays inside the slot's block of nodes, so that a change inside another
  block does not disturb it.

A key is a natural number. At level `level` a node has one slot for each digit
`level` of the keys in its block; a slot at height `height` stands for the keys
with one value of `key / base ^ height`.
-/

set_option autoImplicit false

namespace QemuGzvm.Library

universe u

section Digits

variable (base : Nat) [NeZero base] {block key level : Nat}

def digit (level key : Nat) : Fin base := Fin.ofNat base (key / base ^ level)

theorem digit_val (level key : Nat) : (digit base level key).val = key / base ^ level % base := rfl

theorem block_bounds (within : key / base ^ level = block) :
    block * base ^ level ≤ key ∧ key < block * base ^ level + base ^ level := by
  have positive : 0 < base ^ level := Nat.pow_pos (Nat.pos_of_ne_zero (NeZero.ne base))
  subst within
  refine ⟨Nat.div_mul_le_self .., ?_⟩
  rw [Nat.mul_comm]
  exact Nat.lt_mul_div_succ key positive

/-- A block of one level, split by the digit below it. -/
theorem block_split (level key : Nat) :
    key / base ^ level = key / base ^ (level + 1) * base + digit base level key := by
  rw [digit_val, Nat.pow_succ, ← Nat.div_div_eq_div_mul, Nat.div_add_mod']

/-- The digits below a level are those of the remainder. -/
theorem digit_congr {height other : Nat} (below : level < height)
    (same : key % base ^ height = other % base ^ height) :
    digit base level key = digit base level other := by
  have divides : base ^ (level + 1) ∣ base ^ height := Nat.pow_dvd_pow base below
  apply Fin.ext
  rw [digit_val, digit_val, ← Nat.mod_mul_right_div_self, ← Nat.mod_mul_right_div_self,
    ← Nat.pow_succ, ← Nat.mod_mod_of_dvd key divides, same, Nat.mod_mod_of_dvd other divides]

theorem block_of_split {slot : Fin base} (within : key / base ^ level = block * base + slot) :
    key / base ^ (level + 1) = block ∧ digit base level key = slot := by
  have positive : 0 < base := Nat.pos_of_ne_zero (NeZero.ne base)
  constructor
  · rw [Nat.pow_succ, ← Nat.div_div_eq_div_mul, within, Nat.mul_comm,
      Nat.mul_add_div positive, Nat.div_eq_of_lt slot.isLt, Nat.add_zero]
  · apply Fin.ext
    rw [digit_val, within, Nat.mul_comm, Nat.mul_add_mod, Nat.mod_eq_of_lt slot.isLt]

end Digits

section Ragged

variable (base : Nat)

/-- The number of levels up to `level` at which a bound is not aligned. -/
def ragged : Nat → Nat → Nat
  | 0, _ => 0
  | level + 1, bound => ragged level bound + if base ^ (level + 1) ∣ bound then 0 else 1

theorem ragged_succ (level bound : Nat) : ragged base (level + 1) bound =
    ragged base level bound + if base ^ (level + 1) ∣ bound then 0 else 1 := rfl

theorem ragged_le (level bound : Nat) : ragged base level bound ≤ level := by
  induction level with
  | zero => exact Nat.le_refl 0
  | succ level ih =>
    rw [ragged_succ]
    split <;> omega

theorem ragged_of_dvd {level bound : Nat} (aligned : base ^ level ∣ bound) :
    ragged base level bound = 0 := by
  induction level with
  | zero => rfl
  | succ level ih =>
    rw [ragged_succ, if_pos aligned,
      ih (Nat.dvd_trans (Nat.pow_dvd_pow base (Nat.le_succ _)) aligned)]

end Ragged

/-! ### Heaps and walks -/

/-- What a slot of a node holds. A child that is `skip` levels down is reached without
looking at the digits between. -/
inductive Slot (α : Type u) where
  | empty
  | value (found : α)
  | child (skip node : Nat)
deriving DecidableEq

structure RadixHeap (α : Type u) (base : Nat) where
  size : Nat
  cells : Nat → Fin base → Slot α

section Walks

variable {α : Type u} {base : Nat} [NeZero base]

/-- The search for a key from a slot; an empty slot gives the default. -/
inductive Walk (heap : RadixHeap α base) (default : α) (key : Nat) : Nat → Slot α → α → Prop
  | empty {height : Nat} (positive : 0 < height) : Walk heap default key height .empty default
  | value {height : Nat} {found : α} : Walk heap default key height (.value found) found
  | child {height skip node : Nat} {found : α} (positive : 0 < skip) (fits : skip ≤ height)
      (present : node < heap.size)
      (rest : Walk heap default key (height - skip)
        (heap.cells node (digit base (height - skip) key)) found) :
      Walk heap default key height (.child skip node) found

variable {heap : RadixHeap α base} {default found : α} {key height : Nat} {slot : Slot α}

theorem Walk.unique {one other : α} (walk : Walk heap default key height slot one)
    (again : Walk heap default key height slot other) : one = other := by
  induction walk with
  | empty => cases again; rfl
  | value => cases again; rfl
  | child _ _ _ _ ih =>
    cases again with
    | child _ _ _ rest => exact ih rest

/-- A walk from a slot of height `height` reads only the digits below `height`. -/
theorem Walk.congr {other : Nat} (walk : Walk heap default key height slot found)
    (same : key % base ^ height = other % base ^ height) :
    Walk heap default other height slot found := by
  induction walk with
  | empty positive => exact .empty positive
  | value => exact .value
  | @child height skip node found positive fits present rest ih =>
    refine .child positive fits present ?_
    rw [← digit_congr base (by omega : height - skip < height) same]
    apply ih
    have divides : base ^ (height - skip) ∣ base ^ height := Nat.pow_dvd_pow base (by omega)
    rw [← Nat.mod_mod_of_dvd key divides, same, Nat.mod_mod_of_dvd other divides]

/-- Some key of a given block reads the same. -/
theorem Walk.relocate (walk : Walk heap default key height slot found) (block : Nat) :
    ∃ other, other / base ^ height = block ∧ Walk heap default other height slot found := by
  have positive : 0 < base ^ height := Nat.pow_pos (Nat.pos_of_ne_zero (NeZero.ne base))
  refine ⟨base ^ height * block + key % base ^ height, ?_, walk.congr ?_⟩
  · rw [Nat.mul_add_div positive, Nat.div_eq_of_lt (Nat.mod_lt key positive), Nat.add_zero]
  · rw [Nat.mul_add_mod, Nat.mod_mod]

theorem walk_child_one {level node : Nat} :
    Walk heap default key (level + 1) (.child 1 node) found ↔
      node < heap.size ∧
        Walk heap default key level (heap.cells node (digit base level key)) found := by
  constructor
  · intro walk
    cases walk with
    | child _ _ present rest => exact ⟨present, rest⟩
  · rintro ⟨present, rest⟩
    exact .child Nat.one_pos (Nat.le_add_left 1 level) present rest

end Walks

/-! ### Labels -/

structure Label where
  level : Nat
  block : Nat

section Labels

variable (base : Nat)

/-- A label of a node below a slot of height `height` and block `block`. -/
def Inside (height block : Nat) (label : Label) : Prop :=
  label.level < height ∧ label.block / base ^ (height - 1 - label.level) = block

variable {base} {below : Label} {node otherBlock otherHeight : Nat}

theorem Inside.unique {height block other : Nat} {label : Label}
    (one : Inside base height block label) (two : Inside base height other label) :
    block = other :=
  one.2.symm.trans two.2

/-- What is below a slot of a node is below the slot that the node is below. -/
theorem Inside.of_slot [NeZero base] {height block : Nat} {label : Label} {slot : Fin base}
    (outer : Inside base height block label)
    (inner : Inside base label.level (label.block * base + slot) below) :
    Inside base height block below := by
  obtain ⟨levelBelow, blockBelow⟩ := outer
  obtain ⟨lower, lowerBlock⟩ := inner
  refine ⟨by omega, ?_⟩
  have positive : 0 < base := Nat.pos_of_ne_zero (NeZero.ne base)
  have exponent : height - 1 - below.level =
      (label.level - 1 - below.level) + (1 + (height - 1 - label.level)) := by omega
  rw [exponent, Nat.pow_add, ← Nat.div_div_eq_div_mul, lowerBlock, Nat.pow_add, Nat.pow_one,
    ← Nat.div_div_eq_div_mul, Nat.mul_comm label.block, Nat.mul_add_div positive,
    Nat.div_eq_of_lt slot.isLt, Nat.add_zero, blockBelow]

theorem Inside.self (level block : Nat) : Inside base (level + 1) block ⟨level, block⟩ := by
  refine ⟨Nat.lt_succ_self level, ?_⟩
  rw [Nat.add_sub_cancel, Nat.sub_self, Nat.pow_zero, Nat.div_one]

theorem Inside.up [NeZero base] {level block : Nat} {slot : Fin base}
    (inner : Inside base level (block * base + slot) below) :
    Inside base (level + 1) block below :=
  (Inside.self level block).of_slot inner

variable {α : Type u} {heap heap' : RadixHeap α base} {label label' : Nat → Label} {default found : α}
  {size key level height block : Nat} {slot : Slot α}

variable (base) in
/-- The node a slot points to stands for a part of the slot's block. -/
def Fits (size : Nat) (label : Nat → Label) (height block : Nat) : Slot α → Prop
  | .empty => 0 < height
  | .value _ => True
  | .child skip node => 0 < skip ∧ node < size ∧ (label node).level + skip = height ∧
      (label node).block / base ^ (skip - 1) = block

theorem Fits.inside {skip : Nat}
    (fits : Fits base size label height block (.child skip node : Slot α)) :
    Inside base height block (label node) := by
  obtain ⟨positive, _, level, within⟩ := fits
  refine ⟨by omega, ?_⟩
  have exponent : height - 1 - (label node).level = skip - 1 := by omega
  rw [exponent, within]

theorem Fits.label_one (fits : Fits base size label (level + 1) block (.child 1 node : Slot α)) :
    label node = ⟨level, block⟩ := by
  obtain ⟨_, _, isLevel, isBlock⟩ := fits
  rw [Nat.sub_self, Nat.pow_zero, Nat.div_one] at isBlock
  cases isLabel : label node with
  | mk level' block' =>
    rw [isLabel] at isLevel isBlock
    cases isBlock
    cases isLevel
    rfl

/-- `Fits` reads only the labels of the nodes there are. -/
theorem Fits.mono {larger : Nat} (fits : Fits base size label height block slot)
    (grow : size ≤ larger) (labels : ∀ node < size, label' node = label node) :
    Fits base larger label' height block slot := by
  cases slot with
  | empty => exact fits
  | value => trivial
  | child skip node =>
    grind [Fits]

/-- Every slot of every node fits its place. -/
def Labelled (heap : RadixHeap α base) (label : Nat → Label) : Prop :=
  ∀ node < heap.size, ∀ slot : Fin base, Fits base heap.size label (label node).level
    ((label node).block * base + slot) (heap.cells node slot)

section Searches

variable [NeZero base]

/-- Every search ends, also for a key outside the block of its slot. -/
theorem Labelled.walk_total (labelled : Labelled heap label) (default : α) (key : Nat)
    (fits : Fits base heap.size label height block slot) :
    ∃ found, Walk heap default key height slot found := by
  induction height using Nat.strongRecOn generalizing block slot with
  | ind height ih =>
    cases slot with
    | empty => exact ⟨default, .empty fits⟩
    | value found => exact ⟨found, .value⟩
    | child skip node =>
      obtain ⟨positive, present, level, within⟩ := fits
      have lower : height - skip = (label node).level := by omega
      obtain ⟨found, rest⟩ := ih (label node).level (by omega)
        (labelled node present (digit base (label node).level key))
      refine ⟨found, .child positive (by omega) present ?_⟩
      rw [lower]
      exact rest

/-- A walk reads only nodes below its slot. -/
theorem Walk.frame (labelled : Labelled heap label)
    (walk : Walk heap default key height slot found)
    (fits : Fits base heap.size label height block slot)
    (same : ∀ node < heap.size, Inside base height block (label node) →
      node < heap'.size ∧ heap'.cells node = heap.cells node) :
    Walk heap' default key height slot found := by
  induction walk generalizing block with
  | empty positive => exact .empty positive
  | value => exact .value
  | @child height skip node found positive small present rest ih =>
    have below : Inside base height block (label node) := fits.inside
    obtain ⟨kept, cells⟩ := same node present below
    have level : height - skip = (label node).level := by
      have := fits.2.2.1
      omega
    refine .child positive small kept ?_
    rw [cells]
    have slotFits := labelled node present (digit base (height - skip) key)
    rw [← level] at slotFits
    refine ih slotFits fun other present' inside => ?_
    rw [level] at inside
    exact same other present' (below.of_slot inside)

end Searches

/-! ### Path compression -/

/-- A slot moved to the place of the slot that leads to its node. -/
def Slot.lift : Slot α → Slot α
  | .child skip node => .child (1 + skip) node
  | slot => slot

theorem walk_lift [NeZero base] (fits : Fits base heap.size label level block slot) :
    Walk heap default key (level + 1) slot.lift found ↔ Walk heap default key level slot found := by
  cases slot with
  | empty =>
    constructor
    · intro walk
      cases walk
      exact .empty fits
    · intro walk
      cases walk
      exact .empty (Nat.succ_pos level)
  | value =>
    constructor
    all_goals
      intro walk
      cases walk
      exact .value
  | child skip node =>
    have lower : level + 1 - (1 + skip) = level - skip := by omega
    constructor
    · intro walk
      cases walk with
      | child _ small present rest =>
        rw [lower] at rest
        exact .child fits.1 (by omega) present rest
    · intro walk
      cases walk with
      | child _ small present rest =>
        refine .child (by omega) (by omega) present ?_
        rw [lower]
        exact rest

theorem Fits.lift [NeZero base] {place : Fin base}
    (fits : Fits base size label level (block * base + place) slot) :
    Fits base size label (level + 1) block slot.lift := by
  cases slot with
  | empty => exact Nat.succ_pos level
  | value => trivial
  | child skip node =>
    obtain ⟨positive, present, isLevel, isBlock⟩ := fits
    refine ⟨by omega, present, by omega, ?_⟩
    have exponent : 1 + skip - 1 = (skip - 1) + 1 := by omega
    have whole : 0 < base := Nat.pos_of_ne_zero (NeZero.ne base)
    rw [exponent, Nat.pow_succ, ← Nat.div_div_eq_div_mul, isBlock, Nat.mul_comm,
      Nat.mul_add_div whole, Nat.div_eq_of_lt place.isLt, Nat.add_zero]

/-! ### Changes inside one block -/

/-- The second heap comes from the first by changes below one slot and by new nodes. -/
structure Extends (heap : RadixHeap α base) (label : Nat → Label) (heap' : RadixHeap α base)
    (label' : Nat → Label) (height block : Nat) : Prop where
  grow : heap.size ≤ heap'.size
  labels : ∀ node < heap.size, label' node = label node
  outside : ∀ node < heap.size, ¬Inside base height block (label node) →
    heap'.cells node = heap.cells node

theorem Extends.refl (heap : RadixHeap α base) (label : Nat → Label) (height block : Nat) :
    Extends heap label heap label height block :=
  ⟨Nat.le_refl _, fun _ _ => rfl, fun _ _ _ => rfl⟩

theorem Extends.trans {first second third : RadixHeap α base} {label1 label2 label3 : Nat → Label}
    (one : Extends first label1 second label2 height block)
    (two : Extends second label2 third label3 height block) :
    Extends first label1 third label3 height block := by
  grind [Extends]

section

variable (change : Extends heap label heap' label' height block)
include change

theorem Extends.widen {outerHeight outerBlock : Nat}
    (contained : ∀ below, Inside base height block below →
      Inside base outerHeight outerBlock below) :
    Extends heap label heap' label' outerHeight outerBlock :=
  ⟨change.grow, change.labels, fun node present outside =>
    change.outside node present fun inside => outside (contained _ inside)⟩

/-- A walk from a slot with nothing in common with the change is as before. -/
theorem Extends.walk [NeZero base] 
    (labelled : Labelled heap label) (fits : Fits base heap.size label otherHeight otherBlock slot)
    (apart : ∀ below, Inside base otherHeight otherBlock below → ¬Inside base height block below)
    (walk : Walk heap default key otherHeight slot found) :
    Walk heap' default key otherHeight slot found :=
  walk.frame labelled fits fun node present inside =>
    ⟨Nat.lt_of_lt_of_le present change.grow, change.outside node present (apart _ inside)⟩

theorem Extends.fits (fits : Fits base heap.size label otherHeight otherBlock slot) :
    Fits base heap'.size label' otherHeight otherBlock slot :=
  fits.mono change.grow change.labels

end

end Labels

end QemuGzvm.Library
