import QemuGzvm.Pci.DeviceInv

/-!
Contract: the changes that the calls of the PCI hierarchy make to one function.

Owns:
- `DeviceMove`, one constructor for each kind of change;
- that every move keeps the fixed fields and bits, and `DeviceInv`.

The calls of the hierarchy are compositions of moves, so that a property of one function is
shown once for each kind of move.
-/

namespace QemuGzvm.Pci

open QemuGzvm.Library

section

variable {d e f : PCIDevice} {α : Type} {addr l cap i : Nat} {allow0 : Bool} {pf : Option PCIDevice}
  {val : UInt32}

/-- What `pci_set_irq_state` and `pci_update_irq_status` change. -/
structure IrqOnly (d e : PCIDevice) : Prop where
  rest : e = { d with irqState := e.irqState, config := e.config }
  bytes : ∀ i, i ≠ pciStatus → e.config i = d.config i
  small : e.irqState < 16

/-- What the calls of `hw/pci/pcie_sriov.c` change in the physical function. -/
structure SriovOnly (d e : PCIDevice) : Prop where
  rest : e = { d with config := e.config, wmask := e.wmask }
  sriov : d.sriovCap ≠ 0
  bytes : ∀ i, i < d.sriovCap ∨ Span (d.sriovCap + pciSriovTotalVf) 2 i →
    e.config i = d.config i ∧ e.wmask i = d.wmask i

inductive DeviceMove (allow0 : Bool) : PCIDevice → PCIDevice → Prop
  | irq {d e : PCIDevice} (change : IrqOnly d e) : DeviceMove allow0 d e
  | write {d e : PCIDevice} (pf : Option PCIDevice) (addr : Nat) (val : UInt32) (l : Nat)
      (own : d.pf = none → pf = none) (ran : writeConfigLocal allow0 pf d addr val l = .ok e) :
      DeviceMove allow0 d (if rangesOverlap addr l pciCommand 2 then updateBusMaster e else e)
  | msi {d : PCIDevice} (cap : Nat) (present : d.msiCap = some cap) :
      DeviceMove allow0 d (msiWriteLocal d cap (pciGetWord d.config (cap + pciMsiFlags)))
  | reset {d e : PCIDevice} (pf : Option PCIDevice) (own : d.pf = none → pf = none)
      (ran : resetLocal allow0 pf d = .ok e) : DeviceMove allow0 d e
  | sriov {d e : PCIDevice} (change : SriovOnly d e) : DeviceMove allow0 d e
  | enable {d e : PCIDevice} (pf : Option PCIDevice) (state : Bool) (virtual : d.pf.isSome)
      (ran : pciUpdateMappings allow0 pf { d with enabled := state } = .ok e) :
      DeviceMove allow0 d (updateBusMaster e)

/-- The header other than the status register, and what a guest can write, are the same. -/
structure LeavesHeader (d e : PCIDevice) : Prop where
  enabled : e.enabled = d.enabled
  region : e.busMasterEnabled = d.busMasterEnabled
  wmask : e.wmask = d.wmask
  w1cmask : e.w1cmask = d.w1cmask
  header : ∀ i, i < pciConfigHeaderSize → i ≠ pciStatus → e.config i = d.config i

theorem LeavesHeader.refl (d : PCIDevice) : LeavesHeader d d := ⟨rfl, rfl, rfl, rfl, fun _ _ _ => rfl⟩

theorem LeavesHeader.trans (first : LeavesHeader d e) (second : LeavesHeader e f) :
    LeavesHeader d f where
  enabled := second.enabled.trans first.enabled
  region := second.region.trans first.region
  wmask := second.wmask.trans first.wmask
  w1cmask := second.w1cmask.trans first.w1cmask
  header := fun i low other => (second.header i low other).trans (first.header i low other)

/-! ### Each kind of move keeps the invariant -/

theorem IrqOnly.field (change : IrqOnly d e) (project : PCIDevice → α)
    (ignores : ∀ (d : PCIDevice) irqState config,
      project { d with irqState, config } = project d) : project e = project d := by
  rw [change.rest]
  exact ignores d e.irqState e.config

theorem IrqOnly.leavesHeader (change : IrqOnly d e) : LeavesHeader d e where
  enabled := change.field PCIDevice.enabled fun _ _ _ => rfl
  region := change.field PCIDevice.busMasterEnabled fun _ _ _ => rfl
  wmask := change.field PCIDevice.wmask fun _ _ _ => rfl
  w1cmask := change.field PCIDevice.w1cmask fun _ _ _ => rfl
  header := fun i _ other => change.bytes i other

theorem ChangesOnly.leavesHeader {window : Nat → Prop} (change : ChangesOnly window d e)
    (above : ∀ i, window i → pciConfigHeaderSize ≤ i) : LeavesHeader d e where
  enabled := change.field PCIDevice.enabled fun _ _ => rfl
  region := change.field PCIDevice.busMasterEnabled fun _ _ => rfl
  wmask := change.field PCIDevice.wmask fun _ _ => rfl
  w1cmask := change.field PCIDevice.w1cmask fun _ _ => rfl
  header := by
    grind [ChangesOnly]

theorem SriovOnly.field (change : SriovOnly d e) (project : PCIDevice → α)
    (ignores : ∀ (d : PCIDevice) config wmask,
      project { d with config, wmask } = project d) : project e = project d := by
  rw [change.rest]
  exact ignores d e.config e.wmask

theorem writtenByte_fixed {old wmask w1cmask val mask : UInt8}
    (locked : (wmask ||| w1cmask) &&& mask = 0) :
    writtenByte old wmask w1cmask val &&& mask = old &&& mask := by
  apply UInt8.toBitVec_inj.mp
  ext bit inside
  have closed := congrArg (fun x => x.toBitVec.getLsbD bit) locked
  simp at closed
  simp [writtenByte]
  grind

/-- A write, cut into its bytes, the power state and the mappings. -/
theorem writeConfigLocal_eq_ok (ran : writeConfigLocal allow0 pf d addr val l = .ok e) :
    ∃ written, WritesBytes addr l d written ∧
      (if mappingTrigger addr l (pciPmState d) (Pci.pciPmUpdate written addr l (pciPmState d)).1
        then Pci.pciUpdateMappings allow0 pf (Pci.pciPmUpdate written addr l (pciPmState d)).2
        else .ok (Pci.pciPmUpdate written addr l (pciPmState d)).2) = .ok e := by
  unfold writeConfigLocal at ran
  split at ran
  · cases ran
  · obtain ⟨written, wrote, ran⟩ := bind_eq_ok.mp ran
    exact ⟨written, writeConfigBytes_writes wrote, ran⟩

section

variable (valid : DeviceInv d)
include valid

theorem IrqOnly.sameFixed (change : IrqOnly d e) : SameFixed d e where
  fields := change.field PCIDevice.fixed fun _ _ _ => rfl
  bits := by
    intro i
    by_cases status : i = pciStatus
    · rw [status, valid.fixedMask_header (by decide) (by decide), UInt8.and_zero, UInt8.and_zero]
    · rw [change.bytes i status]

theorem IrqOnly.inv (change : IrqOnly d e) : DeviceInv e := by
  apply valid.of_sameFixed (change.sameFixed valid)
  · grind [DeviceInv, IrqOnly]
  · rw [change.field PCIDevice.ioRegions fun _ _ _ => rfl]
    exact valid.consistent
  · exact change.small

/-- Inside the SR-IOV capability, only the number of VFs is fixed. -/
theorem SriovOnly.free (change : SriovOnly d e) (i : Nat) :
    fixedMask d.msiCap d.sriovCap i = 0 ∨
      e.config i = d.config i ∧ e.wmask i = d.wmask i := by
  by_cases kept : i < d.sriovCap ∨ Span (d.sriovCap + pciSriovTotalVf) 2 i
  · exact .inr (change.bytes i kept)
  · left
    have place := valid.sriovPlace change.sriov
    unfold pciConfigSpaceSize at place
    rw [valid.fixedMask_high (by omega), if_neg fun inside => kept (.inr inside.2)]

theorem SriovOnly.sameFixed (change : SriovOnly d e) : SameFixed d e where
  fields := change.field PCIDevice.fixed fun _ _ _ => rfl
  bits := by
    grind [free, UInt8.and_zero]

theorem SriovOnly.inv (change : SriovOnly d e) : DeviceInv e := by
  apply valid.of_sameFixed (change.sameFixed valid)
  · grind [DeviceInv, SriovOnly, free, UInt8.and_zero]
  · rw [change.field PCIDevice.ioRegions fun _ _ _ => rfl]
    exact valid.consistent
  · rw [change.field PCIDevice.irqState fun _ _ _ => rfl]
    exact valid.irqState

theorem DeviceInv.with_regions {regions : List PCIIORegion}
    (kinds : regions.map PCIIORegion.kind = d.ioRegions.map PCIIORegion.kind)
    (consistent : ∀ r ∈ regions, r.Consistent) :
    SameFixed d { d with ioRegions := regions } ∧ DeviceInv { d with ioRegions := regions } := by
  have same : SameFixed d { d with ioRegions := regions } := by
    refine ⟨?_, fun _ => rfl⟩
    unfold PCIDevice.fixed
    rw [kinds]
  exact ⟨same, valid.of_sameFixed same valid.locked consistent valid.irqState⟩

theorem DeviceInv.pciUpdateMappings (allow0 : Bool) (pf : Option PCIDevice) :
    ∃ e, Pci.pciUpdateMappings allow0 pf d = .ok e ∧
      e = { d with ioRegions := placedRegions allow0 pf d } ∧ SameFixed d e ∧ DeviceInv e := by
  have ran := pciUpdateMappings_eq valid.consistent allow0 pf
  have kinds := (pciUpdateMappings_kind ran).2
  have kept := valid.with_regions kinds (placedRegions_consistent valid.consistent allow0 pf)
  exact ⟨_, ran, rfl, kept.1, kept.2⟩

theorem DeviceInv.with_enabled (state : Bool) :
    SameFixed d { d with enabled := state } ∧ DeviceInv { d with enabled := state } := by
  have same : SameFixed d { d with enabled := state } := ⟨rfl, fun _ => rfl⟩
  exact ⟨same, valid.of_sameFixed same valid.locked valid.consistent valid.irqState⟩

theorem DeviceInv.updateBusMaster :
    SameFixed d (Pci.updateBusMaster d) ∧ DeviceInv (Pci.updateBusMaster d) := by
  have same : SameFixed d (Pci.updateBusMaster d) := ⟨rfl, fun _ => rfl⟩
  exact ⟨same, valid.of_sameFixed same valid.locked valid.consistent valid.irqState⟩

theorem WritesBytes.sameFixed (writes : WritesBytes addr l d e) :
    SameFixed d e where
  fields := writes.only.field PCIDevice.fixed fun _ _ => rfl
  bits := by
    intro i
    by_cases inside : Span addr l i
    · grind [DeviceInv, WritesBytes, writtenByte_fixed]
    · rw [writes.only.bytes i inside]

theorem WritesBytes.inv (writes : WritesBytes addr l d e) :
    DeviceInv e := valid.of_changesOnly writes.only (writes.sameFixed valid)

theorem DeviceInv.pciPmUpdate (addr l : Nat) (old : UInt16) :
    SameFixed d (Pci.pciPmUpdate d addr l old).2 ∧ DeviceInv (Pci.pciPmUpdate d addr l old).2 := by
  exact valid.changed (pciPmUpdate_changesOnly d addr l old) fun i inside => valid.fixedMask_pm inside

theorem DeviceInv.writeConfigLocal
    (ran : Pci.writeConfigLocal allow0 pf d addr val l = .ok e) :
    SameFixed d e ∧ DeviceInv e := by
  obtain ⟨written, writes, ran⟩ := writeConfigLocal_eq_ok ran
  have sameWritten := writes.sameFixed valid
  have updated := (writes.inv valid).pciPmUpdate addr l (pciPmState d)
  split at ran
  · obtain ⟨mapped, ranMapped, -, same, keeps⟩ := updated.2.pciUpdateMappings allow0 pf
    rw [ranMapped] at ran
    cases ran
    exact ⟨(sameWritten.trans updated.1).trans same, keeps⟩
  · cases ran
    exact ⟨sameWritten.trans updated.1, updated.2⟩

/-! ### MSI and reset -/

end

theorem msiPendingOff_above (cap : Nat) (flags : UInt16) : cap + 0x10 ≤ msiPendingOff cap flags := by
  unfold msiPendingOff
  split <;> omega

theorem msiWriteLocal_flags (d : PCIDevice) (cap : Nat) :
    pciGetWord (msiWriteLocal d cap (pciGetWord d.config (cap + pciMsiFlags))).config
        (cap + pciMsiFlags) =
      msiClampVectors (pciGetWord d.config (cap + pciMsiFlags)) := by
  have clamped : ∀ flags, pciGetWord d.config (cap + pciMsiFlags) = flags →
      pciGetWord (if msiClampVectors flags = flags then d.config
        else pciSetWord d.config (cap + pciMsiFlags) (msiClampVectors flags)) (cap + pciMsiFlags) =
      msiClampVectors flags := by
    grind [pciGetWord_set]
  generalize same : pciGetWord d.config (cap + pciMsiFlags) = flags
  have above := msiPendingOff_above cap flags
  have aboveClamped := msiPendingOff_above cap (msiClampVectors flags)
  have two : pciMsiFlags = 2 := rfl
  unfold msiWriteLocal
  split
  · exact clamped flags same
  · refine Eq.trans (pciGetWord_congr ?_) (clamped flags same)
    intro i low high
    dsimp only
    rw [msiSendPending_outside (not_span.mpr (by omega)), pciSetLong_outside (by omega)]

theorem msiPending_inside (cap : Nat) {flags : UInt16} (masked : msiPerVectorMask flags = true) :
    msiPendingOff cap flags + 4 ≤ cap + msiCapSizeof flags := by
  unfold msiPendingOff msiCapSizeof
  rw [masked]
  cases msi64bit flags <;> simp

theorem msiWriteLocal_registers (present : d.msiCap = some cap) :
    ChangesOnly (MsiRegisters d) d
      (msiWriteLocal d cap (pciGetWord d.config (cap + pciMsiFlags))) := by
  apply (msiWriteLocal_changesOnly d cap _).mono
  intro i inside
  have size := (msiCapSizeof_bounds (pciGetWord d.config (cap + pciMsiFlags))).1
  have above := msiPendingOff_above cap (pciGetWord d.config (cap + pciMsiFlags))
  have two : pciMsiFlags = 2 := rfl
  refine ⟨cap, present, ?_⟩
  rcases inside with flags | ⟨masked, pending⟩
  · unfold Span at flags
    omega
  · have place := msiPending_inside cap masked
    unfold Span at pending
    omega

theorem msiReset_flags (present : d.msiCap = some cap) :
    pciGetWord (msiReset d).config (cap + pciMsiFlags) =
      pciGetWord d.config (cap + pciMsiFlags) &&& ~~~(pciMsiFlagsQsize ||| pciMsiFlagsEnable) := by
  unfold msiReset
  rw [present]
  dsimp only
  generalize pciGetWord d.config (cap + pciMsiFlags) &&&
    ~~~(pciMsiFlagsQsize ||| pciMsiFlagsEnable) = flags
  refine Eq.trans (pciGetWord_congr ?_) (pciGetWord_set d.config (cap + pciMsiFlags) flags)
  intro i low high
  unfold pciMsiFlags at low high
  have aboveData : cap + 8 ≤ msiDataOff cap flags := by
    unfold msiDataOff
    split <;> omega
  have aboveMask : cap + 0x0c ≤ msiMaskOff cap flags := by
    unfold msiMaskOff
    split <;> omega
  have abovePending := msiPendingOff_above cap flags
  split_ifs
  · grind [pciSetLong_outside, pciSetWord_outside]
  · rw [pciSetLong_outside (by omega), pciSetLong_outside (by omega),
      pciSetWord_outside (by omega), pciSetLong_outside (by omega)]
  · rw [pciSetWord_outside (by omega), pciSetLong_outside (by omega),
      pciSetLong_outside (by omega)]
  · rw [pciSetWord_outside (by omega), pciSetLong_outside (by omega)]

section

variable (inv : DeviceInv d)
include inv

theorem DeviceInv.of_msiRegisters (change : ChangesOnly (MsiRegisters d) d e)
    (kind : ∀ cap, d.msiCap = some cap →
      pciGetWord e.config (cap + pciMsiFlags) &&& msiKindMask =
        pciGetWord d.config (cap + pciMsiFlags) &&& msiKindMask) :
    SameFixed d e ∧ DeviceInv e := by
  have same : SameFixed d e := by
    refine ⟨change.field PCIDevice.fixed fun _ _ => rfl, ?_⟩
    intro i
    by_cases flags : ∃ cap, d.msiCap = some cap ∧ Span (cap + pciMsiFlags) 2 i
    · obtain ⟨cap, present, low, high⟩ := flags
      have bytes := pciGetWord_mask_iff.mp (msiKindMask_eq ▸ kind cap present)
      have masks := inv.fixedMask_flags present
      have place : i = cap + pciMsiFlags ∨ i = cap + pciMsiFlags + 1 := by omega
      rcases place with rfl | rfl
      · rw [masks.1]
        exact bytes.1
      · rw [masks.2]
        exact bytes.2
    · by_cases inside : MsiRegisters d i
      · have free := inv.fixedMask_msi inside fun cap present here => flags ⟨cap, present, here⟩
        rw [free, UInt8.and_zero, UInt8.and_zero]
      · rw [change.bytes i inside]
  exact ⟨same, inv.of_changesOnly change same⟩

theorem DeviceInv.msiRegisters_above (inside : MsiRegisters d i) :
    pciConfigHeaderSize ≤ i := by
  obtain ⟨cap, present, low, -⟩ := inside
  have place := (inv.msiPlace cap present).1
  omega

theorem DeviceInv.msixControl_above (inside : MsixControl d.msixCap i) :
    pciConfigHeaderSize ≤ i := by
  obtain ⟨cap, present, same⟩ := inside
  have place := (inv.msixPlace cap present).1
  omega

theorem DeviceInv.msiWriteLocal (present : d.msiCap = some cap) :
    SameFixed d (Pci.msiWriteLocal d cap (pciGetWord d.config (cap + pciMsiFlags))) ∧
      DeviceInv (Pci.msiWriteLocal d cap (pciGetWord d.config (cap + pciMsiFlags))) := by
  apply inv.of_msiRegisters (msiWriteLocal_registers present)
  intro other same
  rw [present] at same
  cases same
  rw [msiWriteLocal_flags]
  exact msiClampVectors_kind _

theorem DeviceInv.msiReset :
    SameFixed d (Pci.msiReset d) ∧ DeviceInv (Pci.msiReset d) := by
  apply inv.of_msiRegisters (msiReset_changesOnly d)
  intro cap present
  rw [msiReset_flags present]
  exact msiReset_kind _

theorem DeviceInv.msixReset :
    SameFixed d (Pci.msixReset d) ∧ DeviceInv (Pci.msixReset d) := by
  exact inv.changed (msixReset_changesOnly d) fun i inside => inv.fixedMask_msix inside

theorem DeviceInv.resetConfig :
    SameFixed d (Pci.resetConfig d) ∧ DeviceInv (Pci.resetConfig d) := by
  apply inv.changed (resetConfig_changesOnly d)
  intro i inside
  rcases inside with command | rfl | rfl | pm
  · unfold Span pciCommand at command
    exact inv.fixedMask_header (by unfold pciConfigHeaderSize; omega)
      (by unfold pciHeaderType; omega)
  · exact inv.fixedMask_header (by decide) (by decide)
  · exact inv.fixedMask_header (by decide) (by decide)
  · exact inv.fixedMask_pm pm

theorem DeviceInv.pciResetRegions :
    SameFixed d (Pci.pciResetRegions d) ∧ DeviceInv (Pci.pciResetRegions d) := by
  apply inv.changed (pciResetRegions_changesOnly d (Nat.le_of_eq inv.regionCount))
  intro i inside
  unfold RegionRegisters Span pciBaseAddress0 at inside
  exact inv.fixedMask_header (by unfold pciConfigHeaderSize; omega)
    (by unfold pciHeaderType; omega)

/-- The local part of a reset returns. -/
theorem DeviceInv.resetLocal (allow0 : Bool) (pf : Option PCIDevice) :
    ∃ mapped,
      Pci.pciUpdateMappings allow0 pf (Pci.pciResetRegions (Pci.resetConfig d)) = .ok mapped ∧
      Pci.resetLocal allow0 pf d = .ok (Pci.msixReset (Pci.msiReset mapped)) ∧
      mapped =
        { Pci.pciResetRegions (Pci.resetConfig d) with
          ioRegions := placedRegions allow0 pf (Pci.pciResetRegions (Pci.resetConfig d)) } ∧
      SameFixed d mapped ∧ DeviceInv mapped := by
  have cleared := inv.resetConfig
  have bars := cleared.2.pciResetRegions
  obtain ⟨mapped, ran, same, fixed, keeps⟩ := bars.2.pciUpdateMappings allow0 pf
  refine ⟨mapped, ran, ?_, same, (cleared.1.trans bars.1).trans fixed, keeps⟩
  rw [Pci.resetLocal, ran, bind_ok]

end

/-! ### All moves -/

theorem DeviceMove.keeps (move : DeviceMove allow0 d e) (inv : DeviceInv d) :
    SameFixed d e ∧ DeviceInv e := by
  cases move with
  | irq change => exact ⟨change.sameFixed inv, change.inv inv⟩
  | write pf addr val l own ran =>
    have written := inv.writeConfigLocal ran
    split
    · have master := written.2.updateBusMaster
      exact ⟨written.1.trans master.1, master.2⟩
    · exact written
  | msi cap present => exact inv.msiWriteLocal present
  | reset pf own ran =>
    obtain ⟨mapped, -, ranReset, -, same, keeps⟩ := inv.resetLocal allow0 pf
    rw [ranReset] at ran
    cases ran
    have msi := keeps.msiReset
    have msix := msi.2.msixReset
    exact ⟨(same.trans msi.1).trans msix.1, msix.2⟩
  | sriov change => exact ⟨change.sameFixed inv, change.inv inv⟩
  | enable pf state virtual ran =>
    have enabled := inv.with_enabled state
    obtain ⟨mapped, ranMapped, -, same, keeps⟩ := enabled.2.pciUpdateMappings allow0 pf
    rw [ranMapped] at ran
    cases ran
    have master := keeps.updateBusMaster
    exact ⟨(enabled.1.trans same).trans master.1, master.2⟩

abbrev DeviceMoves (allow0 : Bool) : PCIDevice → PCIDevice → Prop :=
  Relation.ReflTransGen (DeviceMove allow0)

theorem DeviceMoves.keeps (moves : DeviceMoves allow0 d e) (inv : DeviceInv d) :
    SameFixed d e ∧ DeviceInv e := by
  induction moves with
  | refl => exact ⟨.refl d, inv⟩
  | tail _ move ih =>
    have kept := move.keeps ih.2
    exact ⟨ih.1.trans kept.1, kept.2⟩

end

end QemuGzvm.Pci
