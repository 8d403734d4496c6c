import QemuGzvm.Pci.Frames
import QemuGzvm.Pci.Hierarchy

/-!
Contract: what holds of a PCI function from its realization on, whatever the guest does.

Owns:
- `fixedMask`, the bits of the configuration space that neither the guest nor a reset
  changes, and `DeviceInv`, the place of the capabilities together with those bits.
-/

namespace QemuGzvm.Pci

open QemuGzvm.Library

/-! ### Fixed bits -/

/-- The bits that stay as they are: the header type, the kind of the MSI capability and
the number of VFs. -/
def fixedMask (msiCap : Option Nat) (sriovCap i : Nat) : UInt8 :=
  if i = pciHeaderType then 0xff
  else if msiCap.map (· + 2) = some i then 0x80
  else if msiCap.map (· + 3) = some i then 0x01
  else if sriovCap ≠ 0 ∧ Span (sriovCap + pciSriovTotalVf) 2 i then 0xff
  else 0

def pciConfigSpaceSize : Nat := 0x100

def pciPmSizeof : Nat := 8

def msixCapLength : Nat := 12

/-- What realizing a function and adding its capabilities establish. -/
structure DeviceInv (d : PCIDevice) : Prop where
  pmPlace : ∀ cap, d.pmCap = some cap →
    pciConfigHeaderSize ≤ cap ∧ cap + pciPmSizeof ≤ pciConfigSpaceSize
  msiPlace : ∀ cap, d.msiCap = some cap → pciConfigHeaderSize ≤ cap ∧
    cap + msiCapSizeof (pciGetWord d.config (cap + pciMsiFlags)) ≤ pciConfigSpaceSize
  msixPlace : ∀ cap, d.msixCap = some cap →
    pciConfigHeaderSize ≤ cap ∧ cap + msixCapLength ≤ pciConfigSpaceSize
  pmMsi : ∀ pm msi, d.pmCap = some pm → d.msiCap = some msi →
    pm + pciPmSizeof ≤ msi ∨
      msi + msiCapSizeof (pciGetWord d.config (msi + pciMsiFlags)) ≤ pm
  pmMsix : ∀ pm msix, d.pmCap = some pm → d.msixCap = some msix →
    pm + pciPmSizeof ≤ msix ∨ msix + msixCapLength ≤ pm
  msiMsix : ∀ msi msix, d.msiCap = some msi → d.msixCap = some msix →
    msi + msiCapSizeof (pciGetWord d.config (msi + pciMsiFlags)) ≤ msix ∨
      msix + msixCapLength ≤ msi
  sriovPlace : d.sriovCap ≠ 0 → pciConfigSpaceSize ≤ d.sriovCap
  totalVf : d.sriovCap ≠ 0 →
    (pciGetWord d.config (d.sriovCap + pciSriovTotalVf)).toNat = d.vf.length
  locked : ∀ i, (d.wmask i ||| d.w1cmask i) &&& fixedMask d.msiCap d.sriovCap i = 0
  regionCount : d.ioRegions.length = pciNumRegions
  consistent : ∀ r ∈ d.ioRegions, r.Consistent
  irqState : d.irqState < 16

def PCIDevice.fixed (d : PCIDevice) :=
  (d.pmCap, d.msiCap, d.msixCap, d.sriovCap, d.vf, d.pf, d.ioRegions.map PCIIORegion.kind)

structure SameFixed (d e : PCIDevice) : Prop where
  fields : e.fixed = d.fixed
  bits : ∀ i, e.config i &&& fixedMask d.msiCap d.sriovCap i =
    d.config i &&& fixedMask d.msiCap d.sriovCap i

section SameFixed

variable {d e f : PCIDevice} {window : Nat → Prop}

/-- The bits of a word under a mask are those of its bytes under the bytes of the mask. -/
theorem pciGetWord_mask_iff {config other : Bytes} {offset : Nat} {low high : UInt8} :
    pciGetWord config offset &&& (low.toUInt16 ||| high.toUInt16 <<< 8) =
        pciGetWord other offset &&& (low.toUInt16 ||| high.toUInt16 <<< 8) ↔
      config offset &&& low = other offset &&& low ∧
        config (offset + 1) &&& high = other (offset + 1) &&& high := by
  have bytes : ∀ a b : UInt8,
      (a.toUInt16 ||| b.toUInt16 <<< 8) &&& (low.toUInt16 ||| high.toUInt16 <<< 8) =
        (a &&& low).toUInt16 ||| (b &&& high).toUInt16 <<< 8 := by
    intro a b
    apply UInt16.toBitVec_inj.mp
    ext bit inside
    interval_cases bit <;> simp
  have lower : ∀ a b : UInt8, (a.toUInt16 ||| b.toUInt16 <<< 8).toUInt8 = a := by
    intro a b
    apply UInt8.toBitVec_inj.mp
    ext bit inside
    interval_cases bit <;> simp
  have upper : ∀ a b : UInt8, ((a.toUInt16 ||| b.toUInt16 <<< 8) >>> 8).toUInt8 = b := by
    intro a b
    apply UInt8.toBitVec_inj.mp
    ext bit inside
    interval_cases bit <;> simp
  rw [pciGetWord_eq, pciGetWord_eq, bytes, bytes]
  constructor
  · grind
  · intro same
    rw [same.1, same.2]

theorem and_full (byte : UInt8) : byte &&& 0xff = byte := UInt8.and_neg_one

namespace SameFixed

theorem refl (d : PCIDevice) : SameFixed d d := ⟨rfl, fun _ => rfl⟩

theorem headerType (same : SameFixed d e) : e.config pciHeaderType = d.config pciHeaderType := by
  grind [SameFixed, fixedMask, and_full]

theorem trans (first : SameFixed d e) (second : SameFixed e f) : SameFixed d f where
  fields := second.fields.trans first.fields
  bits := by
    grind [SameFixed, PCIDevice.fixed]

section

variable (same : SameFixed d e)
include same

theorem pmCap : e.pmCap = d.pmCap := congrArg (·.1) same.fields

theorem msiCap : e.msiCap = d.msiCap := congrArg (·.2.1) same.fields

theorem msixCap : e.msixCap = d.msixCap := congrArg (·.2.2.1) same.fields

theorem sriovCap : e.sriovCap = d.sriovCap :=
  congrArg (·.2.2.2.1) same.fields

theorem vf : e.vf = d.vf := congrArg (·.2.2.2.2.1) same.fields

theorem pf : e.pf = d.pf := congrArg (·.2.2.2.2.2.1) same.fields

theorem regions : e.ioRegions.map PCIIORegion.kind = d.ioRegions.map PCIIORegion.kind :=
  congrArg (·.2.2.2.2.2.2) same.fields

end

end SameFixed

theorem msiCapSizeof_bounds (flags : UInt16) :
    0x0a ≤ msiCapSizeof flags ∧ msiCapSizeof flags ≤ 0x18 := by
  unfold msiCapSizeof
  split <;> decide

theorem msiKindMask_eq : msiKindMask = (0x80 : UInt8).toUInt16 ||| (0x01 : UInt8).toUInt16 <<< 8 :=
  rfl

namespace DeviceInv

section

variable (inv : DeviceInv d) {cap i : Nat}
include inv

theorem fixedMask_flags (present : d.msiCap = some cap) :
    fixedMask d.msiCap d.sriovCap (cap + pciMsiFlags) = 0x80 ∧
      fixedMask d.msiCap d.sriovCap (cap + pciMsiFlags + 1) = 0x01 := by
  have place := (inv.msiPlace cap present).1
  unfold pciConfigHeaderSize at place
  unfold fixedMask pciHeaderType pciMsiFlags
  rw [present]
  constructor
  · rw [if_neg (by omega), if_pos (by simp)]
  · rw [if_neg (by omega), if_neg (by simp), if_pos (by simp)]

/-- In the extended space, only the number of VFs is fixed. -/
theorem fixedMask_high (high : 0x100 ≤ i) :
    fixedMask d.msiCap d.sriovCap i =
      if d.sriovCap ≠ 0 ∧ Span (d.sriovCap + pciSriovTotalVf) 2 i then 0xff else 0 := by
  have noFlags : ∀ offset ≤ 3, d.msiCap.map (· + offset) ≠ some i := by
    intro offset small same
    obtain ⟨cap, present, there⟩ := Option.map_eq_some_iff.mp same
    have size := (msiCapSizeof_bounds (pciGetWord d.config (cap + pciMsiFlags))).1
    have inLow := (inv.msiPlace cap present).2
    unfold pciConfigSpaceSize at inLow
    omega
  unfold fixedMask pciHeaderType
  rw [if_neg (by omega), if_neg (noFlags 2 (by omega)), if_neg (noFlags 3 (by omega))]

/-- Below the extended space, only the header type and the flags of MSI have fixed bits. -/
theorem fixedMask_low (low : i < pciConfigSpaceSize) (header : i ≠ pciHeaderType)
    (flags : ∀ cap, d.msiCap = some cap → ¬Span (cap + pciMsiFlags) 2 i) :
    fixedMask d.msiCap d.sriovCap i = 0 := by
  have noFlags : ∀ offset, offset = 2 ∨ offset = 3 → d.msiCap.map (· + offset) ≠ some i := by
    intro offset small same
    obtain ⟨cap, present, there⟩ := Option.map_eq_some_iff.mp same
    have outside := not_span.mp (flags cap present)
    unfold pciMsiFlags at outside
    omega
  unfold fixedMask
  rw [if_neg header, if_neg (noFlags 2 (by omega)), if_neg (noFlags 3 (by omega)), if_neg]
  intro inside
  have place := inv.sriovPlace inside.1
  have above := inside.2.1
  omega

theorem fixedMask_header (low : i < pciConfigHeaderSize) (header : i ≠ pciHeaderType) :
    fixedMask d.msiCap d.sriovCap i = 0 := by
  unfold pciConfigHeaderSize at low
  apply inv.fixedMask_low (by unfold pciConfigSpaceSize; omega) header
  intro cap present inside
  have place := (inv.msiPlace cap present).1
  unfold pciConfigHeaderSize at place
  unfold Span at inside
  omega

theorem fixedMask_pm (inside : PmCtrl d.pmCap i) :
    fixedMask d.msiCap d.sriovCap i = 0 := by
  obtain ⟨cap, present, low, high⟩ := inside
  have place := inv.pmPlace cap present
  unfold pciConfigHeaderSize pciConfigSpaceSize pciPmSizeof at place
  unfold pciPmCtrl at low high
  apply inv.fixedMask_low (by unfold pciConfigSpaceSize; omega)
    (by unfold pciHeaderType; omega)
  intro msi there flags
  have apart := inv.pmMsi cap msi present there
  unfold Span pciMsiFlags at flags
  unfold pciPmSizeof at apart
  omega

theorem fixedMask_msix (inside : MsixControl d.msixCap i) :
    fixedMask d.msiCap d.sriovCap i = 0 := by
  obtain ⟨cap, present, same⟩ := inside
  have place := inv.msixPlace cap present
  unfold pciConfigHeaderSize pciConfigSpaceSize msixCapLength at place
  unfold msixControlOffset at same
  apply inv.fixedMask_low (by unfold pciConfigSpaceSize; omega)
    (by unfold pciHeaderType; omega)
  intro msi there flags
  have apart := inv.msiMsix msi cap there present
  have size := (msiCapSizeof_bounds (pciGetWord d.config (msi + pciMsiFlags))).1
  unfold Span pciMsiFlags at flags
  unfold msixCapLength at apart
  omega

theorem fixedMask_msi (inside : MsiRegisters d i)
    (flags : ∀ cap, d.msiCap = some cap → ¬Span (cap + pciMsiFlags) 2 i) :
    fixedMask d.msiCap d.sriovCap i = 0 := by
  obtain ⟨cap, present, low, high⟩ := inside
  have place := inv.msiPlace cap present
  unfold pciConfigHeaderSize at place
  exact inv.fixedMask_low (by omega) (by unfold pciHeaderType; omega) flags

theorem msiKind (same : SameFixed d e) (present : d.msiCap = some cap) :
    pciGetWord e.config (cap + pciMsiFlags) &&& msiKindMask =
      pciGetWord d.config (cap + pciMsiFlags) &&& msiKindMask := by
  obtain ⟨low, high⟩ := inv.fixedMask_flags present
  have first := same.bits (cap + pciMsiFlags)
  have second := same.bits (cap + pciMsiFlags + 1)
  rw [low] at first
  rw [high] at second
  exact pciGetWord_mask_iff.mpr ⟨first, second⟩

/-- What keeps the fixed fields and bits keeps the invariant, if the masks still lock the
fixed bits and the regions and lines are in order. -/
theorem of_sameFixed (same : SameFixed d e)
    (locked : ∀ i, (e.wmask i ||| e.w1cmask i) &&& fixedMask d.msiCap d.sriovCap i = 0)
    (consistent : ∀ r ∈ e.ioRegions, r.Consistent) (irqState : e.irqState < 16) : DeviceInv e := by
  have size : ∀ cap, d.msiCap = some cap →
      msiCapSizeof (pciGetWord e.config (cap + pciMsiFlags)) =
        msiCapSizeof (pciGetWord d.config (cap + pciMsiFlags)) :=
    fun cap present => msiCapSizeof_congr (inv.msiKind same present)
  refine
    { pmPlace := ?_, msiPlace := ?_, msixPlace := ?_, pmMsi := ?_, pmMsix := ?_, msiMsix := ?_,
      sriovPlace := ?_, totalVf := ?_, locked := ?_, regionCount := ?_,
      consistent := consistent, irqState := irqState }
  · rw [same.pmCap]
    exact inv.pmPlace
  · rw [same.msiCap]
    intro cap present
    rw [size cap present]
    exact inv.msiPlace cap present
  · rw [same.msixCap]
    exact inv.msixPlace
  · rw [same.pmCap, same.msiCap]
    intro pm msi hasPm hasMsi
    rw [size msi hasMsi]
    exact inv.pmMsi pm msi hasPm hasMsi
  · rw [same.pmCap, same.msixCap]
    exact inv.pmMsix
  · rw [same.msiCap, same.msixCap]
    intro msi msix hasMsi hasMsix
    rw [size msi hasMsi]
    exact inv.msiMsix msi msix hasMsi hasMsix
  · rw [same.sriovCap]
    exact inv.sriovPlace
  · rw [same.sriovCap, same.vf]
    intro sriov
    rw [← inv.totalVf sriov]
    refine congrArg UInt16.toNat (pciGetWord_congr ?_)
    intro i low high
    have place := inv.sriovPlace sriov
    have bits := same.bits i
    rw [inv.fixedMask_high (by unfold pciConfigSpaceSize at place; omega),
      if_pos ⟨sriov, low, high⟩, and_full, and_full] at bits
    exact bits
  · rw [same.msiCap, same.sriovCap]
    exact locked
  · have counted := congrArg List.length same.regions
    rw [List.length_map, List.length_map] at counted
    rw [counted, inv.regionCount]

end

end DeviceInv

/-! ### Changes to the configuration space -/

theorem ChangesOnly.sameFixed (change : ChangesOnly window d e)
    (free : ∀ i, window i → fixedMask d.msiCap d.sriovCap i = 0) : SameFixed d e where
  fields := change.field PCIDevice.fixed fun _ _ => rfl
  bits := by
    intro i
    by_cases inside : window i
    · rw [free i inside, UInt8.and_zero, UInt8.and_zero]
    · rw [change.bytes i inside]

/-- A change to the configuration space keeps the invariant if it keeps the fixed bits. -/
theorem DeviceInv.of_changesOnly (inv : DeviceInv d) (change : ChangesOnly window d e)
    (same : SameFixed d e) : DeviceInv e := by
  apply inv.of_sameFixed same
  · rw [change.field PCIDevice.wmask fun _ _ => rfl, change.field PCIDevice.w1cmask fun _ _ => rfl]
    exact inv.locked
  · rw [change.field PCIDevice.ioRegions fun _ _ => rfl]
    exact inv.consistent
  · rw [change.field PCIDevice.irqState fun _ _ => rfl]
    exact inv.irqState

theorem DeviceInv.changed (inv : DeviceInv d) (change : ChangesOnly window d e)
    (free : ∀ i, window i → fixedMask d.msiCap d.sriovCap i = 0) :
    SameFixed d e ∧ DeviceInv e :=
  ⟨change.sameFixed free, inv.of_changesOnly change (change.sameFixed free)⟩

end SameFixed

end QemuGzvm.Pci
