import Mathlib.Data.Nat.Bitwise

/-!
Contract: the interrupt word passed to `GZVM_IRQ_LINE`.

Owns:
- `gzvm_arm_gicv3_set_irq` of `hw/intc/arm_gicv3_gzvm.c`, which splits the CPU index
  over two fields of the word;
- `arm_cpu_gzvm_set_irq` of `target/arm/gzvm.c`, whose word has no CPU index at all;
- the calls that reach the ioctl, the source each stands for, and which sources a
  word tells apart.
-/

namespace QemuGzvm.Gzvm

/-! ### The word -/

inductive IrqType where
  | cpu
  | spi
  | ppi
deriving DecidableEq, Repr

def IrqType.code : IrqType → UInt32
  | .cpu => 0
  | .spi => 1
  | .ppi => 2

structure GzvmIrqLevel where
  irq : UInt32
  level : Bool
deriving DecidableEq, Repr

/-- The word of the GIC: type, CPU index in two pieces, number. -/
def gicIrqWord (irqtype : IrqType) (cpu knum : Nat) : UInt32 :=
  (irqtype.code <<< 24) ||| ((UInt32.ofNat cpu &&& 0xff) <<< 16) |||
    (((UInt32.ofNat cpu >>> 8) &&& 0xf) <<< 28) ||| UInt32.ofNat knum

/-- `(irq >> GZVM_IRQ_TYPE_SHIFT) & GZVM_IRQ_TYPE_MASK` -/
def irqWordType (word : UInt32) : UInt32 := (word >>> 24) &&& 0xf

def irqWordVcpu (word : UInt32) : UInt32 :=
  (((word >>> 28) &&& 0xf) <<< 8) ||| ((word >>> 16) &&& 0xff)

/-- `(irq >> GZVM_IRQ_NUM_SHIFT) & GZVM_IRQ_NUM_MASK` -/
def irqWordNum (word : UInt32) : UInt32 := word &&& 0xffff

/-! ### The GIC -/

def gicInternal : Nat := 32

def gzvmMsiSpiBase : Nat := 48

/-- The part of `GICv3State` that is read here, with the file's `irq_notify`. -/
structure GICv3State where
  numIrq : Nat
  /-- `s->level` of the distributor, by interrupt id. -/
  level : Nat → Bool := fun _ => false
  /-- `s->cpu[cpu].level`, by CPU and bit. -/
  cpuLevel : Nat → Nat → Bool := fun _ _ => false
  /-- Which entries of `irq_notify` are initialized. -/
  irqNotify : List Bool := []

inductive IrqAction where
  | eventNotifier (irq : Nat)
  | unchanged
  | irqLine (line : GzvmIrqLevel)
deriving DecidableEq, Repr

def gzvmArmGicv3SetIrq (s : GICv3State) (irq : Nat) (level : Bool) : IrqAction × GICv3State :=
  if level && decide (gzvmMsiSpiBase ≤ irq) && s.irqNotify.getD irq false then
    (.eventNotifier irq, s)
  else if irq < s.numIrq - gicInternal then
    let knum := irq
    let irq := irq + gicInternal
    if !level && !s.level irq then (.unchanged, s)
    else
      (.irqLine { irq := gicIrqWord .spi 0 knum, level },
        { s with level := Function.update s.level irq level })
  else
    let irq := irq - (s.numIrq - gicInternal)
    let cpu := irq / gicInternal
    let irq := irq % gicInternal
    if !level && !s.cpuLevel cpu irq then (.unchanged, s)
    else
      (.irqLine { irq := gicIrqWord .ppi cpu irq, level },
        { s with
          cpuLevel := Function.update s.cpuLevel cpu
            (Function.update (s.cpuLevel cpu) irq level) })

/-! ### The inputs of a CPU -/

inductive ArmCpuInput where
  | irq
  | fiq
  | virq
  | vfiq
  | nmi
  | vinmi
deriving DecidableEq, Repr

def ArmCpuInput.linestateBit : ArmCpuInput → UInt32
  | .irq => 0x0002
  | .fiq => 0x0010
  | .virq => 0x0040
  | .vfiq => 0x0200
  | .nmi => 0x1000
  | .vinmi => 0x0008

/-- `GZVM_IRQ_CPU_IRQ` and `GZVM_IRQ_CPU_FIQ`; the other inputs have no number. -/
def ArmCpuInput.irqId : ArmCpuInput → Option Nat
  | .irq => some 0
  | .fiq => some 1
  | _ => none

structure ARMCPU where
  cpuIndex : Nat
  el2 : Bool := false
  irqLineState : UInt32 := 0
deriving DecidableEq, Repr

/-- The calls of `arm_cpu_update_virq` and `arm_cpu_update_vfiq`, which raise or lower
the CPU's own interrupt request, are left out. -/
def armCpuGzvmSetIrq (cpu : ARMCPU) (input : ArmCpuInput) (level : Bool) : IrqAction × ARMCPU :=
  if !cpu.el2 && (input == .virq || input == .vfiq) then (.unchanged, cpu)
  else
    let after :=
      { cpu with
        irqLineState :=
          if level then cpu.irqLineState ||| input.linestateBit
          else cpu.irqLineState &&& ~~~input.linestateBit }
    match input.irqId with
    | none => (.unchanged, after)
    | some irqId =>
      (.irqLine { irq := (IrqType.cpu.code <<< 24) ||| UInt32.ofNat irqId, level }, after)

/-! ### Sources -/

structure IrqSource where
  type : IrqType
  vcpu : Nat
  line : Nat
deriving DecidableEq, Repr

/-- The calls of the two functions, each named by its source. -/
inductive IrqCall where
  | spi (s : GICv3State) (line : Nat) (level : Bool)
  | ppi (s : GICv3State) (cpu line : Nat) (level : Bool)
  | cpuIrq (cpu : ARMCPU) (level : Bool)
  | cpuFiq (cpu : ARMCPU) (level : Bool)

def IrqCall.source : IrqCall → IrqSource
  | .spi _ line _ => ⟨.spi, 0, line⟩
  | .ppi _ cpu line _ => ⟨.ppi, cpu, line⟩
  | .cpuIrq cpu _ => ⟨.cpu, cpu.cpuIndex, 0⟩
  | .cpuFiq cpu _ => ⟨.cpu, cpu.cpuIndex, 1⟩

def IrqCall.action : IrqCall → IrqAction
  | .spi s line level => (gzvmArmGicv3SetIrq s line level).1
  | .ppi s cpu line level =>
    (gzvmArmGicv3SetIrq s (s.numIrq - gicInternal + cpu * gicInternal + line) level).1
  | .cpuIrq cpu level => (armCpuGzvmSetIrq cpu .irq level).1
  | .cpuFiq cpu level => (armCpuGzvmSetIrq cpu .fiq level).1

/-- The lines and CPUs that exist: `num_irq` is at most 1020, and the CPU indices are
those of the two fields. -/
def IrqCall.Valid (numCpu : Nat) : IrqCall → Prop
  | .spi s line _ => gicInternal ≤ s.numIrq ∧ s.numIrq ≤ 1020 ∧ line < s.numIrq - gicInternal
  | .ppi s cpu line _ =>
    gicInternal ≤ s.numIrq ∧ s.numIrq ≤ 1020 ∧ cpu < numCpu ∧ line < gicInternal
  | .cpuIrq cpu _ => cpu.cpuIndex < numCpu
  | .cpuFiq cpu _ => cpu.cpuIndex < numCpu

/-- The word with which a call reaches `GZVM_IRQ_LINE`. -/
def IrqCall.Passes (call : IrqCall) (word : UInt32) : Prop :=
  ∃ level, call.action = .irqLine { irq := word, level }

/-- A word read back with the shifts and masks gives this source. -/
def Decodes (word : UInt32) (source : IrqSource) : Prop :=
  irqWordType word = source.type.code ∧ (irqWordVcpu word).toNat = source.vcpu ∧
    (irqWordNum word).toNat = source.line

/-! ### Reading a word back -/

private theorem or_rotate (first second third fourth : Nat) :
    first ||| second ||| third ||| fourth = third ||| (first ||| (second ||| fourth)) := by
  ac_rfl

variable {cpu knum numCpu : Nat} {word : UInt32} {call : IrqCall}

/-- The value of a word: its fields do not overlap. -/
theorem gicIrqWord_toNat (irqtype : IrqType) (cpuSmall : cpu < 4096) (knumSmall : knum < 65536) :
    (gicIrqWord irqtype cpu knum).toNat =
      cpu / 256 * 2 ^ 28 + (irqtype.code.toNat * 2 ^ 24 + (cpu % 256 * 2 ^ 16 + knum)) := by
  have typeSmall : irqtype.code.toNat < 16 := by cases irqtype <;> decide
  have low : cpu % 2 ^ 32 &&& 255 = cpu % 256 := by
    rw [Nat.and_two_pow_sub_one_eq_mod _ 8]
    omega
  have high : (cpu % 2 ^ 32) >>> 8 &&& 15 = cpu / 256 := by
    rw [Nat.shiftRight_eq_div_pow, Nat.and_two_pow_sub_one_eq_mod _ 4]
    omega
  have whole : ∀ {field shift : Nat}, field * 2 ^ shift < 2 ^ 32 →
      field <<< shift % 2 ^ 32 = field <<< shift := by
    intro field shift small
    rw [Nat.shiftLeft_eq, Nat.mod_eq_of_lt small]
  simp only [gicIrqWord, UInt32.toNat_or, UInt32.toNat_shiftLeft, UInt32.toNat_and,
    UInt32.toNat_shiftRight, UInt32.toNat_ofNat', UInt32.reduceToNat, Nat.reduceMod, low, high]
  rw [whole (by omega), whole (by omega), whole (by omega),
    Nat.mod_eq_of_lt (by omega : knum < 2 ^ 32), or_rotate]
  have third : (cpu % 256) <<< 16 ||| knum = cpu % 256 * 2 ^ 16 + knum := by
    rw [← Nat.shiftLeft_add_eq_or_of_lt (by omega), Nat.shiftLeft_eq]
  have second : irqtype.code.toNat <<< 24 ||| (cpu % 256 * 2 ^ 16 + knum) =
      irqtype.code.toNat * 2 ^ 24 + (cpu % 256 * 2 ^ 16 + knum) := by
    rw [← Nat.shiftLeft_add_eq_or_of_lt (by omega), Nat.shiftLeft_eq]
  rw [third, second, ← Nat.shiftLeft_add_eq_or_of_lt (by omega), Nat.shiftLeft_eq]

theorem irqWordType_toNat (word : UInt32) : (irqWordType word).toNat = word.toNat / 2 ^ 24 % 16 := by
  rw [irqWordType, UInt32.toNat_and, UInt32.toNat_shiftRight]
  exact (Nat.and_two_pow_sub_one_eq_mod _ 4).trans (by rw [Nat.shiftRight_eq_div_pow]; rfl)

theorem irqWordVcpu_toNat (word : UInt32) :
    (irqWordVcpu word).toNat = word.toNat / 2 ^ 28 % 16 * 256 + word.toNat / 2 ^ 16 % 256 := by
  have high : (word >>> 28 &&& 0xf).toNat = word.toNat / 2 ^ 28 % 16 := by
    rw [UInt32.toNat_and, UInt32.toNat_shiftRight]
    exact (Nat.and_two_pow_sub_one_eq_mod _ 4).trans (by rw [Nat.shiftRight_eq_div_pow]; rfl)
  have low : (word >>> 16 &&& 0xff).toNat = word.toNat / 2 ^ 16 % 256 := by
    rw [UInt32.toNat_and, UInt32.toNat_shiftRight]
    exact (Nat.and_two_pow_sub_one_eq_mod _ 8).trans (by rw [Nat.shiftRight_eq_div_pow]; rfl)
  rw [irqWordVcpu, UInt32.toNat_or, UInt32.toNat_shiftLeft, high, low]
  have small : word.toNat / 2 ^ 28 % 16 * 2 ^ 8 < 2 ^ 32 := by omega
  show (word.toNat / 2 ^ 28 % 16) <<< 8 % 2 ^ 32 ||| _ = _
  rw [Nat.shiftLeft_eq, Nat.mod_eq_of_lt small, ← Nat.shiftLeft_eq,
    ← Nat.shiftLeft_add_eq_or_of_lt (by omega), Nat.shiftLeft_eq]

theorem irqWordNum_toNat (word : UInt32) : (irqWordNum word).toNat = word.toNat % 65536 := by
  rw [irqWordNum, UInt32.toNat_and]
  exact Nat.and_two_pow_sub_one_eq_mod _ 16

theorem decodes_gicIrqWord (irqtype : IrqType) (cpuSmall : cpu < 4096) (knumSmall : knum < 65536) :
    Decodes (gicIrqWord irqtype cpu knum) ⟨irqtype, cpu, knum⟩ := by
  have typeSmall : irqtype.code.toNat < 16 := by cases irqtype <;> decide
  have value := gicIrqWord_toNat irqtype cpuSmall knumSmall
  refine ⟨UInt32.toNat_inj.mp ?_, ?_, ?_⟩
  · rw [irqWordType_toNat, value]
    dsimp only
    omega
  · rw [irqWordVcpu_toNat, value]
    dsimp only
    omega
  · rw [irqWordNum_toNat, value]
    dsimp only
    omega

theorem IrqType.code_injective : Function.Injective IrqType.code := by
  intro left right same
  cases left <;> cases right <;> first | rfl | cases same

/-- A word stands for one source at most. -/
theorem Decodes.unique {left right : IrqSource} (first : Decodes word left)
    (second : Decodes word right) : left = right := by
  obtain ⟨leftType, leftVcpu, leftLine⟩ := left
  obtain ⟨rightType, rightVcpu, rightLine⟩ := right
  obtain ⟨sameType, sameVcpu, sameLine⟩ := first
  rw [IrqSource.mk.injEq]
  exact ⟨IrqType.code_injective (sameType.symm.trans second.1), sameVcpu.symm.trans second.2.1,
    sameLine.symm.trans second.2.2⟩

/-! ### Which sources a word tells apart -/

/-- What the word of a call says: the CPU inputs all stand for CPU 0. -/
def IrqCall.encoded (call : IrqCall) : IrqSource :=
  match call.source.type with
  | .cpu => { call.source with vcpu := 0 }
  | _ => call.source

theorem IrqCall.Passes.word_eq (valid : call.Valid numCpu) (passes : call.Passes word) :
    word = gicIrqWord call.encoded.type call.encoded.vcpu call.encoded.line := by
  obtain ⟨level, passes⟩ := passes
  cases call with
  | spi s line raised =>
    obtain ⟨-, -, inside⟩ := valid
    simp only [IrqCall.action, gzvmArmGicv3SetIrq, if_pos inside] at passes
    split at passes
    · cases passes
    · split at passes <;> cases passes
      rfl
  | ppi s cpu line raised =>
    obtain ⟨-, -, -, inside⟩ := valid
    unfold gicInternal at inside
    have outside : ¬ s.numIrq - gicInternal + cpu * gicInternal + line <
        s.numIrq - gicInternal := by omega
    have offset : s.numIrq - gicInternal + cpu * gicInternal + line -
        (s.numIrq - gicInternal) = cpu * gicInternal + line := by omega
    have index : (cpu * gicInternal + line) / gicInternal = cpu := by
      unfold gicInternal
      omega
    have number : (cpu * gicInternal + line) % gicInternal = line := by
      unfold gicInternal
      omega
    simp only [IrqCall.action, gzvmArmGicv3SetIrq, if_neg outside, offset, index,
      number] at passes
    split at passes
    · cases passes
    · split at passes <;> cases passes
      rfl
  | cpuIrq cpu raised =>
    have word_eq : (IrqType.cpu.code <<< 24) ||| UInt32.ofNat 0 = gicIrqWord .cpu 0 0 := by decide
    cases el2 : cpu.el2 <;>
      simp only [IrqCall.action, armCpuGzvmSetIrq, el2, ArmCpuInput.irqId] at passes <;>
      cases passes <;> exact word_eq
  | cpuFiq cpu raised =>
    have word_eq : (IrqType.cpu.code <<< 24) ||| UInt32.ofNat 1 = gicIrqWord .cpu 0 1 := by decide
    cases el2 : cpu.el2 <;>
      simp only [IrqCall.action, armCpuGzvmSetIrq, el2, ArmCpuInput.irqId] at passes <;>
      cases passes <;> exact word_eq

theorem IrqCall.Passes.decodes (fields : numCpu ≤ 4096) (valid : call.Valid numCpu)
    (passes : call.Passes word) :
    Decodes word call.encoded := by
  rw [passes.word_eq valid]
  apply decodes_gicIrqWord
  · cases call with
    | spi | cpuIrq | cpuFiq => exact Nat.zero_lt_succ _
    | ppi s cpu line level => exact Nat.lt_of_lt_of_le valid.2.2.1 fields
  · cases call with
    | spi s line level =>
      obtain ⟨-, few, inside⟩ := valid
      simp only [IrqCall.encoded, IrqCall.source]
      omega
    | ppi s cpu line level => exact Nat.lt_trans valid.2.2.2 (by decide)
    | cpuIrq | cpuFiq => simp [IrqCall.encoded, IrqCall.source]

theorem IrqCall.encoded_eq_source :
    call.source = call.encoded ↔ (call.source.type = .cpu → call.source.vcpu = 0) := by
  cases call <;> simp [IrqCall.encoded, IrqCall.source]

/-- Two calls encode the same source exactly if they have the same source, or are the
same input of two CPUs. -/
theorem IrqCall.encoded_eq_encoded {left right : IrqCall} :
    left.encoded = right.encoded ↔ left.source = right.source ∨
      left.source.type = .cpu ∧ right.source.type = .cpu ∧
        left.source.line = right.source.line := by
  cases left <;> cases right <;> simp [IrqCall.encoded, IrqCall.source]

/-- The words of two calls that reach the ioctl tell their sources apart unless both are
the same input of different CPUs, and a word gives back the source it was built from
unless that is an input of a CPU other than the first. -/
theorem irqWord_identifies_iff {numCpu : Nat} (fields : numCpu ≤ 4096) {left right : IrqCall}
    {leftWord rightWord : UInt32} (leftValid : left.Valid numCpu) (rightValid : right.Valid numCpu)
    (leftPasses : left.Passes leftWord) (rightPasses : right.Passes rightWord) :
    ((left.source ≠ right.source → leftWord ≠ rightWord) ↔
      ¬ (left.source.type = .cpu ∧ right.source.type = .cpu ∧
        left.source.line = right.source.line ∧ left.source.vcpu ≠ right.source.vcpu)) ∧
    (Decodes leftWord left.source ↔ (left.source.type = .cpu → left.source.vcpu = 0)) := by
  have leftDecodes := leftPasses.decodes fields leftValid
  have rightDecodes := rightPasses.decodes fields rightValid
  have same_iff : leftWord = rightWord ↔ left.encoded = right.encoded := by
    constructor
    · intro same
      subst same
      exact leftDecodes.unique rightDecodes
    · intro same
      rw [leftPasses.word_eq leftValid, rightPasses.word_eq rightValid, same]
  constructor
  · rw [ne_eq leftWord, same_iff, IrqCall.encoded_eq_encoded]
    constructor
    · grind
    · rintro kept different (same | ⟨leftCpu, rightCpu, line⟩)
      · exact different same
      · apply kept
        refine ⟨leftCpu, rightCpu, line, fun vcpu => different ?_⟩
        calc left.source = ⟨left.source.type, left.source.vcpu, left.source.line⟩ := rfl
          _ = right.source := by rw [leftCpu, vcpu, line, ← rightCpu]
  · rw [← IrqCall.encoded_eq_source]
    constructor
    · intro decoded
      exact decoded.unique leftDecodes
    · intro same
      rw [same]
      exact leftDecodes

/-- The FIQ input of CPU 0 and private interrupt 1 of CPU 300. -/
theorem irqWord_identifies_iff_apart :
    Decodes 1 ⟨.cpu, 0, 1⟩ ∧ ((1 : UInt32) ≠ gicIrqWord .ppi 300 1) := by
  have result := irqWord_identifies_iff (Nat.le_refl 4096)
    (show IrqCall.Valid 4096 (.cpuFiq { cpuIndex := 0 } true) from Nat.zero_lt_succ _)
    (show IrqCall.Valid 4096 (.ppi { numIrq := 256 } 300 1 true) from
      ⟨by decide, by decide, by decide, by decide⟩)
    (show IrqCall.Passes _ 1 from ⟨true, by decide⟩)
    (show IrqCall.Passes _ (gicIrqWord .ppi 300 1) from ⟨true, by decide⟩)
  exact ⟨result.2.mpr fun _ => rfl, result.1.mpr (by decide) (by decide)⟩

/-- The IRQ inputs of the first two CPUs pass the same word. -/
theorem irqWord_not_identifying :
    ∃ (left right : IrqCall) (word : UInt32), left.Valid 2 ∧ right.Valid 2 ∧
      left.Passes word ∧ right.Passes word ∧ left.source ≠ right.source ∧
      ¬ Decodes word right.source :=
  ⟨.cpuIrq { cpuIndex := 0 } true, .cpuIrq { cpuIndex := 1 } true, 0, Nat.zero_lt_two, Nat.one_lt_two,
    ⟨true, by decide⟩, ⟨true, by decide⟩, by decide, fun decoded => by
      have index := decoded.2.1
      revert index
      decide⟩

end QemuGzvm.Gzvm
