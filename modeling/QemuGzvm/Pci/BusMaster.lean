import QemuGzvm.Pci.MachineRuns

/-!
Contract: the region that lets a PCI function master the bus, and the bit of its command
register that should say so (`bus_master_enable_region`, `PCI_COMMAND_MASTER`).

Owns:
- `MasterFollows`, that the region of a function follows its bit;
- what writes, resets and the SR-IOV calls make of it;
- the runs of writes and resets, in which a reset breaks it exactly if the bit is set and
  cleared by the reset.

`pci_default_write_config` and `pci_set_enabled` set the region from the command register.
`pci_do_device_reset` clears bits of that register and leaves the region.
-/

namespace QemuGzvm.Pci

open QemuGzvm.Library

/-! ### One function -/

def masterSet (d : PCIDevice) : Bool := pciGetWord d.config pciCommand &&& pciCommandMaster != 0

def masterResets (d : PCIDevice) : Bool := resetMask d pciCommand &&& pciCommandMaster != 0

/-- The region of an enabled function follows the bit. That of a function that is not
enabled is off, and so is the bit if a reset clears it. -/
structure MasterFollows (d : PCIDevice) : Prop where
  on : d.enabled = true → d.busMasterEnabled = masterSet d
  off : d.enabled = false → d.busMasterEnabled = false ∧ (masterSet d && masterResets d) = false

structure SameMaster (d e : PCIDevice) : Prop where
  enabled : e.enabled = d.enabled
  region : e.busMasterEnabled = d.busMasterEnabled
  bit : masterSet e = masterSet d
  resets : masterResets e = masterResets d

section

variable {allow0 : Bool} {d e f : PCIDevice}

theorem SameMaster.refl (d : PCIDevice) : SameMaster d d := ⟨rfl, rfl, rfl, rfl⟩

theorem SameMaster.trans (first : SameMaster d e) (second : SameMaster e f) : SameMaster d f where
  enabled := second.enabled.trans first.enabled
  region := second.region.trans first.region
  bit := second.bit.trans first.bit
  resets := second.resets.trans first.resets

theorem MasterFollows.congr (follows : MasterFollows d) (same : SameMaster d e) :
    MasterFollows e := by
  grind [MasterFollows, SameMaster]

theorem masterSet_congr (same : ∀ i, Span pciCommand 2 i → e.config i = d.config i) :
    masterSet e = masterSet d := by
  unfold masterSet
  rw [pciGetWord_congr fun i low high => same i ⟨low, high⟩]

theorem masterResets_congr (wmask : ∀ i, Span pciCommand 2 i → e.wmask i = d.wmask i)
    (w1cmask : e.w1cmask = d.w1cmask) : masterResets e = masterResets d := by
  unfold masterResets resetMask
  rw [pciGetWord_congr fun i low high => wmask i ⟨low, high⟩, w1cmask]

theorem span_command {i : Nat} (inside : Span pciCommand 2 i) :
    i < pciConfigHeaderSize ∧ i ≠ pciStatus := by
  unfold Span pciCommand at inside
  unfold pciConfigHeaderSize pciStatus
  omega

theorem LeavesHeader.sameMaster (leaves : LeavesHeader d e) : SameMaster d e where
  enabled := leaves.enabled
  region := leaves.region
  bit := masterSet_congr fun i inside =>
    leaves.header i (span_command inside).1 (span_command inside).2
  resets := masterResets_congr (fun i _ => congrFun leaves.wmask i) leaves.w1cmask

theorem SriovOnly.sameMaster (inv : DeviceInv d) (change : SriovOnly d e) : SameMaster d e := by
  have above := inv.sriovPlace change.sriov
  have below : ∀ i, Span pciCommand 2 i → i < d.sriovCap := by
    intro i inside
    have low := (span_command inside).1
    unfold pciConfigHeaderSize at low
    unfold pciConfigSpaceSize at above
    omega
  exact
    { enabled := change.field PCIDevice.enabled fun _ _ _ => rfl
      region := change.field PCIDevice.busMasterEnabled fun _ _ _ => rfl
      bit := masterSet_congr fun i inside => (change.bytes i (.inl (below i inside))).1
      resets := masterResets_congr
        (fun i inside => (change.bytes i (.inl (below i inside))).2)
        (change.field PCIDevice.w1cmask fun _ _ _ => rfl) }

theorem ChangesOnly.sameMaster {window : Nat → Prop} (change : ChangesOnly window d e)
    (apart : ∀ i, Span pciCommand 2 i → ¬window i) : SameMaster d e where
  enabled := change.field PCIDevice.enabled fun _ _ => rfl
  region := change.field PCIDevice.busMasterEnabled fun _ _ => rfl
  bit := masterSet_congr fun i inside => change.bytes i (apart i inside)
  resets := masterResets_congr
    (fun i _ => congrFun (change.field PCIDevice.wmask fun _ _ => rfl) i)
    (change.field PCIDevice.w1cmask fun _ _ => rfl)

/-! ### Writes and resets of one function -/

theorem masterFollows_update (d : PCIDevice) (enabled : d.enabled = true) :
    MasterFollows (Pci.updateBusMaster d) := by
  refine ⟨?_, ?_⟩
  · intro _
    unfold Pci.updateBusMaster
    rw [enabled, Bool.and_true]
    rfl
  · intro disabled
    have same : d.enabled = false := disabled
    rw [enabled] at same
    cases same

theorem MasterFollows.write {pf : Option PCIDevice} {addr l : Nat} {val : UInt32}
    (follows : MasterFollows d) (inv : DeviceInv d) (enabled : d.enabled = true)
    (ran : writeConfigLocal allow0 pf d addr val l = .ok e) :
    MasterFollows (if rangesOverlap addr l pciCommand 2 then Pci.updateBusMaster e else e) := by
  have still := writeConfigLocal_field ran PCIDevice.enabled fun _ _ _ => rfl
  split
  · exact masterFollows_update e (still.trans enabled)
  · next apart =>
    have outside := rangesOverlap_eq_false.mp (Bool.eq_false_of_not_eq_true apart)
    apply follows.congr
    refine ⟨still, writeConfigLocal_field ran PCIDevice.busMasterEnabled fun _ _ _ => rfl,
      masterSet_congr ?_, masterResets_congr ?_ ?_⟩
    · intro i inside
      apply writeConfigLocal_bytes inv ran _ (span_command inside).1
      unfold Span at inside
      exact not_span.mpr (by omega)
    · exact fun i _ => congrFun (writeConfigLocal_field ran PCIDevice.wmask fun _ _ _ => rfl) i
    · exact writeConfigLocal_field ran PCIDevice.w1cmask fun _ _ _ => rfl

theorem master_bit (word : UInt16) :
    (word &&& pciCommandMaster != 0) = word.toBitVec.getLsbD 2 := by
  have value : word &&& pciCommandMaster = if word.toBitVec.getLsbD 2 then 4 else 0 := by
    apply UInt16.toBitVec_inj.mp
    ext bit inside
    cases set : word.toBitVec.getLsbD 2 <;> interval_cases bit <;>
      simp_all [pciCommandMaster]
  rw [value]
  cases word.toBitVec.getLsbD 2 <;> rfl

structure MasterReset (d e : PCIDevice) : Prop where
  enabled : e.enabled = d.enabled
  region : e.busMasterEnabled = d.busMasterEnabled
  bit : masterSet e = (masterSet d && !masterResets d)
  resets : masterResets e = masterResets d

theorem resetConfig_command (inv : DeviceInv d) :
    pciGetWord (Pci.resetConfig d).config pciCommand =
      pciGetWord d.config pciCommand &&& ~~~resetMask d pciCommand := by
  refine Eq.trans (pciGetWord_congr ?_) (pciGetWord_set d.config pciCommand _)
  intro i low high
  have command : pciCommand = 4 := rfl
  have status : pciStatus = 6 := rfl
  have line : pciInterruptLine = 0x3c := rfl
  have cacheLine : pciCacheLineSize = 0x0c := rfl
  unfold Pci.resetConfig
  split
  · dsimp only
    rw [pciSetByte_outside (by omega), pciByteTestAndClearMask, pciSetByte_outside (by omega),
      pciWordTestAndClearMask_outside (not_span.mpr (by omega)), pciWordTestAndClearMask]
  · next cap present =>
    have place := (inv.pmPlace cap present).1
    unfold pciConfigHeaderSize at place
    dsimp only
    rw [pciWordTestAndClearMask_outside (not_span.mpr (by omega)),
      pciSetByte_outside (by omega), pciByteTestAndClearMask, pciSetByte_outside (by omega),
      pciWordTestAndClearMask_outside (not_span.mpr (by omega)), pciWordTestAndClearMask]

theorem resetConfig_master (inv : DeviceInv d) : MasterReset d (Pci.resetConfig d) := by
  have change := resetConfig_changesOnly d
  refine ⟨change.field PCIDevice.enabled fun _ _ => rfl,
    change.field PCIDevice.busMasterEnabled fun _ _ => rfl, ?_, ?_⟩
  · unfold masterSet masterResets
    rw [resetConfig_command inv, master_bit, master_bit, master_bit, UInt16.toBitVec_and,
      UInt16.toBitVec_not, BitVec.getLsbD_and, BitVec.getLsbD_not]
    rfl
  · exact masterResets_congr (fun i _ => congrFun (change.field PCIDevice.wmask fun _ _ => rfl) i)
      (change.field PCIDevice.w1cmask fun _ _ => rfl)

theorem MasterReset.congr (reset : MasterReset d e) (same : SameMaster e f) : MasterReset d f where
  enabled := same.enabled.trans reset.enabled
  region := same.region.trans reset.region
  bit := same.bit.trans reset.bit
  resets := same.resets.trans reset.resets

theorem resetLocal_master {pf : Option PCIDevice} (inv : DeviceInv d)
    (ran : resetLocal allow0 pf d = .ok e) : MasterReset d e := by
  obtain ⟨mapped, -, ranReset, same, -, kept⟩ := inv.resetLocal allow0 pf
  rw [ranReset] at ran
  cases ran
  have regions : SameMaster (Pci.resetConfig d) (Pci.pciResetRegions (Pci.resetConfig d)) := by
    apply (pciResetRegions_changesOnly _ (Nat.le_of_eq inv.resetConfig.2.regionCount)).sameMaster
    intro i command inside
    unfold Span pciCommand at command
    unfold RegionRegisters Span pciBaseAddress0 at inside
    omega
  have mappings : SameMaster (Pci.pciResetRegions (Pci.resetConfig d)) mapped := by
    rw [same]
    exact ⟨rfl, rfl, rfl, rfl⟩
  have msi := ((msiReset_changesOnly mapped).leavesHeader
    fun _ => kept.msiRegisters_above).sameMaster
  have msix := ((msixReset_changesOnly (Pci.msiReset mapped)).leavesHeader
    fun _ => kept.msiReset.2.msixControl_above).sameMaster
  exact (resetConfig_master inv).congr (regions.trans (mappings.trans (msi.trans msix)))

/-- A reset keeps what is right exactly if it does not clear the bit of an enabled
function. -/
theorem MasterReset.follows_iff (reset : MasterReset d e) (follows : MasterFollows d) :
    (e.enabled = true → e.busMasterEnabled = masterSet e) ↔
      (d.enabled && masterSet d && masterResets d) = false := by
  grind [MasterReset, MasterFollows]

theorem MasterReset.follows (reset : MasterReset d e) (follows : MasterFollows d)
    (clear : (d.enabled && masterSet d && masterResets d) = false) : MasterFollows e := by
  grind [MasterReset, MasterFollows]

theorem MasterFollows.enable {state : Bool} {regions : List PCIIORegion} {irq : PCIDevice}
    (follows : MasterFollows d) (changes : d.enabled ≠ state)
    (change : IrqOnly (Pci.updateBusMaster
      { d with enabled := state, ioRegions := regions }) irq)
    (reset : MasterReset irq e) : MasterFollows e := by
  have same := change.leavesHeader.sameMaster
  refine ⟨?_, ?_⟩
  · intro enabled
    have on : state = true := by
      rw [← enabled, reset.enabled, same.enabled]
      rfl
    subst on
    have off := follows.off (Bool.eq_false_of_not_eq_true changes)
    rw [reset.region, reset.bit, same.region, same.bit, same.resets]
    change (masterSet d && true) = (masterSet d && !masterResets d)
    revert off
    cases masterSet d <;> cases masterResets d <;> simp
  · intro disabled
    have off : state = false := by
      rw [← disabled, reset.enabled, same.enabled]
      rfl
    subst off
    rw [reset.region, reset.bit, reset.resets, same.region, same.resets]
    refine ⟨?_, ?_⟩
    · change (_ && false) = false
      rw [Bool.and_false]
    · cases masterResets (Pci.updateBusMaster
        { d with enabled := false, ioRegions := regions }) <;> simp

end

/-! ### The functions of a machine -/

variable {topo : PciTopology} {right : Nat → Prop} {s t u : PciState} {d : Nat} {dev : PCIDevice}
  {addr l : Nat} {val : UInt32}

/-- The regions of the `right` functions follow their bits, and there is nothing behind a
VF. -/
structure MasterInv (topo : PciTopology) (right : Nat → Prop) (s : PciState) : Prop
    extends MachineInv topo s where
  endpoints : ∀ d vf, s.present d = true → vf ∈ (s.dev d).vf → topo.childBus vf = []
  masters : ∀ d, s.present d = true → right d → MasterFollows (s.dev d)

section

variable (inv : MasterInv topo right s)
include inv

theorem MasterInv.of_follows (kept : MachineInv topo t)
    (follows : Follows topo s t)
    (masters : ∀ d, s.present d = true → right d → MasterFollows (t.dev d)) : MasterInv topo right t where
  toMachineInv := kept
  endpoints := by
    rw [follows.present]
    intro d vf there member
    rw [(inv.fixed follows there).vf] at member
    exact inv.endpoints d vf there member
  masters := by
    rw [follows.present]
    exact masters

theorem MasterInv.of_own (kept : MachineInv topo t)
    (follows : Follows topo s t) (others : ∀ e, e ≠ d → t.dev e = s.dev e)
    (own : s.present d = true → right d → MasterFollows (t.dev d)) : MasterInv topo right t := by
  apply inv.of_follows kept follows
  intro e there good
  by_cases same : e = d
  · subst same
    exact own there good
  · rw [others e same]
    exact inv.masters e there good

theorem MasterInv.of_irqStep (kept : MachineInv topo t)
    (step : IrqStep d s t) : MasterInv topo right t :=
  inv.of_own kept step.follows step.others fun there good =>
    (inv.masters d there good).congr step.own.leavesHeader.sameMaster

theorem MasterInv.setDev (kept : MachineInv topo (s.setDev d dev))
    (quiet : Quiet topo s (s.setDev d dev)) (master : right d → MasterFollows dev) :
    MasterInv topo right (s.setDev d dev) := by
  apply inv.of_own kept quiet.toFollows fun e other => s.setDev_of_ne other dev
  rw [s.setDev_self]
  exact fun _ => master

theorem MasterInv.setSriov (there : s.present d = true)
    (change : SriovOnly (s.dev d) dev) :
    MasterInv topo right (s.setDev d dev) ∧ Quiet topo s (s.setDev d dev) := by
  obtain ⟨kept, quiet⟩ := inv.toMachineInv.setSriov there change
  have same := change.sameMaster (inv.device d there)
  exact ⟨inv.setDev kept quiet fun good => (inv.masters d there good).congr same, quiet⟩

end

theorem MachineInv.endpoint_reset (inv : MachineInv topo s) (there : s.present d = true)
    (noVfs : (s.dev d).sriovCap = 0) (endpoint : topo.childBus d = []) :
    ∃ t, Pci.pciDeviceReset topo s d = .ok t ∧ MachineInv topo t ∧ Quiet topo s t ∧
      (∀ e, e ≠ d → t.dev e = s.dev e) ∧
      ∃ irq, IrqOnly (s.dev d) irq ∧ MasterReset irq (t.dev d) := by
  obtain ⟨u, dev, ranIrq, step, low, keptU, ranReset, -, kept, quiet⟩ := inv.resetOwn there
  have fixed := inv.fixed quiet.toFollows there
  have noVfsAfter : ((u.setDev d dev).dev d).sriovCap = 0 := fixed.sriovCap.trans noVfs
  obtain ⟨fuel, enough⟩ : ∃ fuel, resetFuel topo = fuel + 2 := by
    have bus := topo.lt_of_mem _ d (inv.slot d there)
    exact ⟨resetFuel topo - 2, by unfold resetFuel; omega⟩
  refine ⟨u.setDev d dev, ?_, kept, quiet, ?_, u.dev d, step.own, ?_⟩
  · rw [Pci.pciDeviceReset, enough, Pci.reset, Pci.reset, endpoint]
    change Pci.pciDoDeviceReset topo _ s d = _
    rw [Pci.pciDoDeviceReset, ranIrq, bind_ok, if_neg (not_not.mpr low), ranReset, bind_ok,
      Pci.pcieSriovPfReset]
    rw [if_pos noVfsAfter]
  · intro e other
    rw [u.setDev_of_ne other]
    exact step.others e other
  · rw [u.setDev_self]
    exact resetLocal_master (keptU.device d (step.present ▸ there)) ranReset

section

variable (inv : MasterInv topo right s)
include inv

theorem MasterInv.pciSetEnabled (state : Bool) (there : s.present d = true) (good : right d)
    (noVfs : (s.dev d).sriovCap = 0) (virtual : (s.dev d).pf.isSome)
    (endpoint : topo.childBus d = [])
    (ran : Pci.pciSetEnabled topo (Pci.pciDeviceReset topo) s d state = .ok t) :
    MasterInv topo right t ∧ Quiet topo s t ∧ ∀ e, e ≠ d → t.dev e = s.dev e := by
  unfold Pci.pciSetEnabled at ran
  split at ran
  · cases ran
    exact ⟨inv, .refl topo s, fun _ _ => rfl⟩
  next changes =>
  obtain ⟨mapped, ranMapped, ⟨_, same⟩, set⟩ := inv.setEnabledDev there virtual state
  have thereSet : (s.setDev d (Pci.updateBusMaster mapped)).present d = true := there
  rw [ranMapped, bind_ok] at ran
  rw [if_pos thereSet] at ran
  obtain ⟨_, ranReset, kept, quiet, others, irq, change, reset⟩ :=
    set.1.endpoint_reset thereSet (by rw [s.setDev_self, same]; exact noVfs) endpoint
  rw [ranReset] at ran
  cases ran
  have unchanged : ∀ e, e ≠ d → t.dev e = s.dev e := by
    intro e other
    rw [others e other, s.setDev_of_ne other]
  refine ⟨inv.of_own kept (set.2.trans quiet).toFollows unchanged fun _ _ => ?_,
    set.2.trans quiet, unchanged⟩
  rw [s.setDev_self, same] at change
  exact (inv.masters d there good).enable changes change reset

theorem MasterInv.vfsKeep (there : s.present d = true) (others : ∀ e, e ≠ d → right e)
    (sriov : (s.dev d).sriovCap ≠ 0) :
    VfsKeep topo (Pci.pciDeviceReset topo) d fun u =>
      MasterInv topo right u ∧ Quiet topo s u ∧ SameMaster (s.dev d) (u.dev d) := by
  have machine := inv.toMachineInv.vfsKeep (resetsVf_pciDeviceReset topo _) there rfl sriov
  constructor
  · exact fun u kept => machine.pf u ⟨kept.1.toMachineInv, kept.2.1⟩
  · rintro u dev ⟨kept, quiet, same⟩ change
    have thereU : u.present d = true := quiet.present ▸ there
    obtain ⟨keptSet, quietSet⟩ := kept.setSriov thereU change
    refine ⟨keptSet, quiet.trans quietSet, same.trans ?_⟩
    rw [u.setDev_self]
    exact change.sameMaster (kept.device d thereU)
  · rintro u vf state ⟨kept, quiet, same⟩ member
    have thereU : u.present d = true := quiet.present ▸ there
    obtain ⟨thereVf, -, noVfs, pf⟩ := kept.vfs d vf thereU member
    have different : d ≠ vf := by
      rintro rfl
      exact (machine.pf u ⟨kept.toMachineInv, quiet⟩).1 noVfs
    obtain ⟨t, ran, -, vfs⟩ := machine.vf u vf state ⟨kept.toMachineInv, quiet⟩ member
    obtain ⟨keptT, quietT, unchanged⟩ := kept.pciSetEnabled state thereVf
      (others vf different.symm) noVfs (by rw [pf]; rfl) (kept.endpoints d vf thereU member) ran
    refine ⟨t, ran, ⟨keptT, quiet.trans quietT, ?_⟩, vfs⟩
    rw [unchanged d different]
    exact same

end

theorem MasterInv.complete (inv : MasterInv topo (· ≠ d) s) (own : MasterFollows (s.dev d)) :
    MasterInv topo (fun _ => True) s where
  toMachineInv := inv.toMachineInv
  endpoints := inv.endpoints
  masters := by
    grind [MasterInv]

theorem MasterInv.weaken (inv : MasterInv topo (fun _ => True) s) : MasterInv topo right s where
  toMachineInv := inv.toMachineInv
  endpoints := inv.endpoints
  masters := fun e there _ => inv.masters e there trivial

/-- The bit of the function is on, and a reset turns it off. -/
def resetClearsMaster (d : PCIDevice) : Bool := d.enabled && masterSet d && masterResets d

/-- A reset of a function keeps the regions right if it does not clear the bit of an enabled
one, and otherwise leaves the region of that function wrong. -/
theorem MasterInv.pciDoDeviceReset (inv : MasterInv topo (fun _ => True) s)
    (there : s.present d = true)
    (ran : Pci.pciDoDeviceReset topo (Pci.pciDeviceReset topo) s d = .ok t) :
    t.present = s.present ∧
    (resetClearsMaster (s.dev d) = false → MasterInv topo (fun _ => True) t) ∧
    (((t.dev d).enabled = true → (t.dev d).busMasterEnabled = masterSet (t.dev d)) ↔
      resetClearsMaster (s.dev d) = false) := by
  obtain ⟨u, dev, ranIrq, step, low, keptU, ranReset, -, kept, quiet⟩ :=
    inv.toMachineInv.resetOwn there
  have thereU : u.present d = true := step.present ▸ there
  have invU := inv.of_irqStep keptU step
  have sameU := step.own.leavesHeader.sameMaster
  have reset := resetLocal_master (keptU.device d thereU) ranReset
  rw [Pci.pciDoDeviceReset, ranIrq, bind_ok, if_neg (not_not.mpr low), ranReset, bind_ok] at ran
  have condition : resetClearsMaster (s.dev d) = resetClearsMaster (u.dev d) := by
    unfold resetClearsMaster
    rw [sameU.enabled, sameU.bit, sameU.resets]
  have partly : MasterInv topo (· ≠ d) (u.setDev d dev) := by
    apply inv.weaken.of_follows kept quiet.toFollows
    intro e present other
    rw [u.setDev_of_ne other]
    exact invU.masters e (step.present ▸ present) trivial
  obtain ⟨_, ranSriov, partlyEnd, quietEnd, same⟩ := pcieSriovPfReset_keeps
    ⟨partly, .refl topo _, .refl _⟩ (partly.vfsKeep thereU fun _ => id)
  cases ran.symm.trans ranSriov
  rw [u.setDev_self] at same
  have resetEnd := reset.congr same
  have master := invU.masters d thereU trivial
  rw [condition]
  refine ⟨(quiet.trans quietEnd).present, ?_, resetEnd.follows_iff master⟩
  exact fun clear => partlyEnd.complete (resetEnd.follows master clear)

/-! ### Writes -/

theorem MasterInv.of_touchesAbove (inv : MasterInv topo right s) (kept : MachineInv topo t)
    (quiet : Quiet topo s t) (touches : TouchesAbove d s t) : MasterInv topo right t :=
  inv.of_own kept quiet.toFollows touches.others fun there good =>
    (inv.masters d there good).congr touches.own.sameMaster

theorem MasterInv.pciDefaultWriteConfig (inv : MasterInv topo (fun _ => True) s)
    (there : s.present d = true) (enabled : (s.dev d).enabled = true)
    (ran : Pci.pciDefaultWriteConfig topo s d addr val l = .ok t) :
    MasterInv topo (fun _ => True) t := by
  unfold Pci.pciDefaultWriteConfig at ran
  obtain ⟨dev, wrote, ran⟩ := bind_eq_ok.mp ran
  obtain ⟨first, ranFirst, ran⟩ := bind_eq_ok.mp ran
  obtain ⟨keptFirst, followsFirst, devs⟩ := inv.toMachineInv.writeCommand there wrote ranFirst
  have invFirst : MasterInv topo (fun _ => True) first := by
    apply inv.of_own keptFirst followsFirst
    · exact fun e other => devs ▸ Function.update_of_ne other _ _
    · rw [devs, Function.update_self]
      exact fun _ _ => (inv.masters d there trivial).write (inv.device d there) enabled wrote
  have thereFirst : first.present d = true := followsFirst.present ▸ there
  obtain ⟨second, ranMsi, keptSecond, quietSecond, touchesSecond⟩ :=
    keptFirst.msiWriteConfig thereFirst addr l
  have invSecond := invFirst.of_touchesAbove keptSecond quietSecond touchesSecond
  have thereSecond : second.present d = true := quietSecond.present ▸ thereFirst
  obtain ⟨third, ranMsix, keptThird, quietThird, touchesThird⟩ :=
    keptSecond.msixWriteConfig thereSecond addr l
  have invThird := invSecond.of_touchesAbove keptThird quietThird touchesThird
  rw [ranMsi, bind_ok, ranMsix, bind_ok] at ran
  obtain ⟨_, ranSriov, kept, -⟩ | stops := pcieSriovConfigWrite_keeps
    ⟨invThird, .refl topo _, .refl _⟩
    (invThird.vfsKeep (quietThird.present ▸ thereSecond) fun _ _ => trivial) addr val l
  · cases ran.symm.trans ranSriov
    exact kept
  · cases ran.symm.trans stops

/-! ### Runs -/

inductive MasterOp where
  | writeConfig (d addr : Nat) (val : UInt32) (l : Nat)
  | reset (d : Nat)

def MasterOp.next (topo : PciTopology) (s : PciState) : MasterOp → Option PciState
  | .writeConfig d addr val l =>
    if s.present d && (s.dev d).enabled then
      (pciDefaultWriteConfig topo s d addr val l).toOption
    else none
  | .reset d =>
    if s.present d then (pciDoDeviceReset topo (pciDeviceReset topo) s d).toOption else none

/-- A reset does not clear the bit of an enabled function. -/
def MasterKept (s : PciState) : MasterOp → Prop
  | .writeConfig _ _ _ _ => True
  | .reset d => resetClearsMaster (s.dev d) = false

instance (s : PciState) (op : MasterOp) : Decidable (MasterKept s op) :=
  match op with
  | .writeConfig _ _ _ _ => .isTrue trivial
  | .reset _ => inferInstanceAs (Decidable (_ = _))

/-- A machine whose functions do not master the bus yet, and whose VFs are endpoints. -/
structure MasterMachine extends PciMachine where
  endpoints : ∀ d vf, start.present d = true → vf ∈ (start.dev d).vf → topo.childBus vf = []
  /-- `pci_init_bus_master` -/
  off : ∀ d, start.present d = true →
    (start.dev d).busMasterEnabled = false ∧ masterSet (start.dev d) = false

namespace MasterMachine

variable {machine : MasterMachine}

def system (machine : MasterMachine) : LabelledSystem PciState MasterOp :=
  .ofNext machine.start (MasterOp.next machine.topo)

theorem start_masterInv (machine : MasterMachine) :
    MasterInv machine.topo (fun _ => True) machine.start where
  toMachineInv := machine.start_inv
  endpoints := machine.endpoints
  masters := by
    intro d there _
    obtain ⟨region, bit⟩ := machine.off d there
    refine ⟨fun _ => region.trans bit.symm, fun _ => ⟨region, ?_⟩⟩
    rw [bit, Bool.false_and]

theorem next_masterInv {op : MasterOp} (inv : MasterInv topo (fun _ => True) s)
    (step : op.next topo s = some t) :
    (MasterKept s op → MasterInv topo (fun _ => True) t) ∧
    ((∀ d, t.present d = true → (t.dev d).enabled = true →
      (t.dev d).busMasterEnabled = masterSet (t.dev d)) → MasterKept s op) := by
  cases op with
  | writeConfig d addr val l =>
    refine ⟨fun _ => ?_, fun _ => trivial⟩
    rw [MasterOp.next] at step
    split at step
    · next can =>
      obtain ⟨there, enabled⟩ := Bool.and_eq_true_iff.mp can
      exact inv.pciDefaultWriteConfig there enabled (toOption_eq_some.mp step)
    · cases step
  | reset d =>
    rw [MasterOp.next] at step
    split at step
    · next there =>
      obtain ⟨present, keeps, wrong⟩ :=
        inv.pciDoDeviceReset there (toOption_eq_some.mp step)
      exact ⟨keeps, fun all => wrong.mp (all d (present ▸ there))⟩
    · cases step

theorem reached_masterInv (reached : machine.system.ReachedBy MasterKept s) :
    MasterInv machine.topo (fun _ => True) s := by
  refine reached.invariant (MasterInv machine.topo fun _ => True) ?_ ?_
  · intro start initial
    cases initial
    exact machine.start_masterInv
  · intro before op after inv kept step
    exact (next_masterInv inv step).1 kept

end MasterMachine

/-- In a run none of whose resets clears `PCI_COMMAND_MASTER` of an enabled function, the
region of every enabled function follows the bit; and the first reset that does clear one
breaks this. -/
theorem busMaster_follows_iff (machine : MasterMachine)
    (reached : machine.system.ReachedBy MasterKept s) :
    (∀ d, s.present d = true → (s.dev d).enabled = true →
      (s.dev d).busMasterEnabled = masterSet (s.dev d)) ∧
    ∀ op t, op.next machine.topo s = some t →
      ((∀ d, t.present d = true → (t.dev d).enabled = true →
        (t.dev d).busMasterEnabled = masterSet (t.dev d)) ↔ MasterKept s op) := by
  have inv := MasterMachine.reached_masterInv reached
  refine ⟨fun d there enabled => (inv.masters d there trivial).on enabled, ?_⟩
  intro op t step
  obtain ⟨keeps, wrong⟩ := MasterMachine.next_masterInv inv step
  refine ⟨wrong, fun kept d there enabled => ?_⟩
  exact ((keeps kept).masters d there trivial).on enabled

def plainMasterMachine : MasterMachine where
  toPciMachine := singleMachine plainDevice plainDevice_inv rfl rfl
  endpoints := fun _ _ _ none => absurd none List.not_mem_nil
  off := fun _ _ => ⟨rfl, show masterSet plainDevice = false by decide⟩

/-- A guest that turns the bit off before the reset, and on again after it. -/
theorem busMaster_follows_iff_cleared :
    ∃ s, plainMasterMachine.system.ReachedBy MasterKept s ∧ s.present 0 = true ∧
      (s.dev 0).enabled = true ∧ masterSet (s.dev 0) = true ∧
      (s.dev 0).busMasterEnabled = masterSet (s.dev 0) := by
  obtain ⟨s, reached, there, enabled, bit⟩ : ∃ s, plainMasterMachine.system.ReachedBy MasterKept s ∧
      s.present 0 = true ∧ (s.dev 0).enabled = true ∧ masterSet (s.dev 0) = true :=
    LabelledSystem.exists_reachedBy
      [.writeConfig 0 4 4 2, .writeConfig 0 4 0 2, .reset 0, .writeConfig 0 4 4 1]
      (by decide +kernel)
  have follows := (busMaster_follows_iff plainMasterMachine reached).1 0 there enabled
  exact ⟨s, reached, there, enabled, bit, follows⟩

/-- A reset while the function masters the bus: the bit is off and the region still on. -/
theorem busMaster_left_on :
    ∃ s, plainMasterMachine.system.ReachedBy (fun _ _ => True) s ∧ s.present 0 = true ∧
      (s.dev 0).enabled = true ∧ masterSet (s.dev 0) = false ∧
      (s.dev 0).busMasterEnabled = true :=
  LabelledSystem.exists_reachedBy [.writeConfig 0 4 4 2, .reset 0] (by decide +kernel)

end QemuGzvm.Pci
