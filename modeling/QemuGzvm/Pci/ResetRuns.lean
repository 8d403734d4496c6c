import QemuGzvm.Pci.IntxLines

/-!
Contract: resets of functions and buses return, and leave the lines of everything behind
them low.

Owns:
- `MachineInv`, what holds of a machine between any two calls;
- `Follows`, the effect of calls on the functions as moves, and `Quiet`, of calls that raise
  no pin;
- the specifications of the SR-IOV calls and of `reset`.

A reset calls itself for the buses behind a function and for its VFs. The former are younger
than the bus of the function and the latter have no VFs of their own, which bounds the calls.
-/

namespace QemuGzvm.Pci

open QemuGzvm.Library

variable {topo : PciTopology} {s t u : PciState} {d : Nat}

/-! ### The invariant -/

structure PciInv (topo : PciTopology) (s : PciState) : Prop extends LineInv topo s where
  device : ∀ d, s.present d = true → DeviceInv (s.dev d)
  bridged : ∀ d bridge, s.present d = true →
    topo.parentDev (topo.busOf d) = some bridge → s.present bridge = true

/-- A VF is realized with its physical function, on the same bus, and has no VFs. -/
structure MachineInv (topo : PciTopology) (s : PciState) : Prop extends PciInv topo s where
  vfNodup : ∀ d, s.present d = true → (s.dev d).vf.Nodup
  vfs : ∀ d vf, s.present d = true → vf ∈ (s.dev d).vf →
    s.present vf = true ∧ topo.busOf vf = topo.busOf d ∧ (s.dev vf).sriovCap = 0 ∧
      (s.dev vf).pf = some d

/-- The same functions are realized, and moves lead from one state of each to the other. -/
structure Follows (topo : PciTopology) (s t : PciState) : Prop where
  present : t.present = s.present
  moves : ∀ d, DeviceMoves topo.allow0 (s.dev d) (t.dev d)

structure Quiet (topo : PciTopology) (s t : PciState) : Prop extends Follows topo s t where
  low : ∀ d, (s.dev d).irqState = 0 → (t.dev d).irqState = 0

theorem Follows.refl (topo : PciTopology) (s : PciState) : Follows topo s s :=
  ⟨rfl, fun _ => .refl⟩

theorem Follows.trans (first : Follows topo s t) (second : Follows topo t u) :
    Follows topo s u :=
  ⟨second.present.trans first.present, fun d => (first.moves d).trans (second.moves d)⟩

theorem Quiet.refl (topo : PciTopology) (s : PciState) : Quiet topo s s :=
  ⟨Follows.refl topo s, fun _ => id⟩

theorem Quiet.trans (first : Quiet topo s t) (second : Quiet topo t u) : Quiet topo s u :=
  ⟨first.toFollows.trans second.toFollows, fun d before => second.low d (first.low d before)⟩

theorem MachineInv.fixed (inv : MachineInv topo s) (follows : Follows topo s t)
    (there : s.present d = true) : SameFixed (s.dev d) (t.dev d) :=
  (DeviceMoves.keeps (follows.moves d) (inv.device d there)).1

theorem MachineInv.sriov_kept (inv : MachineInv topo s) (follows : Follows topo s t)
    (there : s.present d = true) (sriov : (s.dev d).sriovCap ≠ 0) : (t.dev d).sriovCap ≠ 0 := by
  rw [(inv.fixed follows there).sriovCap]
  exact sriov

theorem MachineInv.of_follows (inv : MachineInv topo s) (follows : Follows topo s t)
    (lines : LineInv topo t) : MachineInv topo t := by
  have fixed := fun d => inv.fixed follows (d := d)
  refine
    { toLineInv := lines, device := ?_, bridged := ?_, vfNodup := ?_, vfs := ?_ }
  · rw [follows.present]
    exact fun d there => (DeviceMoves.keeps (follows.moves d) (inv.device d there)).2
  · rw [follows.present]
    exact inv.bridged
  · rw [follows.present]
    intro d there
    rw [(fixed d there).vf]
    exact inv.vfNodup d there
  · rw [follows.present]
    intro d vf there member
    rw [(fixed d there).vf] at member
    obtain ⟨present, bus, sriov, pf⟩ := inv.vfs d vf there member
    refine ⟨present, bus, ?_, ?_⟩
    · rw [(fixed vf present).sriovCap, sriov]
    · rw [(fixed vf present).pf, pf]

theorem IrqStep.follows (step : IrqStep d s t) : Follows topo s t := by
  refine ⟨step.present, ?_⟩
  intro e
  by_cases same : e = d
  · subst same
    exact .single (.irq step.own)
  · rw [step.others e same]

theorem LineInv.setDev (inv : LineInv topo s) (d : Nat) (dev : PCIDevice)
    (irqState : dev.irqState = (s.dev d).irqState)
    (command : (s.dev d).irqState = 0 ∨ pciIrqDisabled dev = pciIrqDisabled (s.dev d)) :
    LineInv topo (s.setDev d dev) ∧
      ∀ e, ((s.setDev d dev).dev e).irqState = (s.dev e).irqState := by
  have own := s.setDev_self d dev
  have others := fun e other => s.setDev_of_ne (e := e) (d := d) other dev
  have pins : ∀ e, ((s.setDev d dev).dev e).irqState = (s.dev e).irqState := by
    grind
  have present : (s.setDev d dev).present = s.present := rfl
  refine ⟨⟨?_, inv.slot, inv.counted.congr rfl rfl (asserting_congr present ?_)⟩, pins⟩
  · intro e there
    rw [pins e]
    exact inv.small e there
  · grind [driven_eq_false, driven, pciIrqState]

variable {dev : PCIDevice} {bus fuel b : Nat}

theorem Follows.setDev (moves : DeviceMoves topo.allow0 (s.dev d) dev) :
    Follows topo s (s.setDev d dev) := by
  refine ⟨rfl, ?_⟩
  intro e
  by_cases same : e = d
  · subst same
    rw [s.setDev_self]
    exact moves
  · rw [s.setDev_of_ne same]

theorem MachineInv.setDev (inv : MachineInv topo s) (move : DeviceMove topo.allow0 (s.dev d) dev)
    (irqState : dev.irqState = (s.dev d).irqState)
    (command : (s.dev d).irqState = 0 ∨ pciIrqDisabled dev = pciIrqDisabled (s.dev d)) :
    MachineInv topo (s.setDev d dev) ∧ Quiet topo s (s.setDev d dev) := by
  have follows : Follows topo s (s.setDev d dev) := .setDev (.single move)
  obtain ⟨lines, pins⟩ := inv.toLineInv.setDev d dev irqState command
  exact ⟨inv.of_follows follows lines, follows, fun e low => (pins e).trans low⟩

section

variable (inv : MachineInv topo s) (there : s.present d = true)
include inv there

theorem MachineInv.pciDeviceDeassertIntx :
    ∃ t, Pci.pciDeviceDeassertIntx topo s d = .ok t ∧ MachineInv topo t ∧ Quiet topo s t ∧
      IrqStep d s t ∧ (t.dev d).irqState = 0 := by
  obtain ⟨t, ran, lines, step, low⟩ := inv.toLineInv.pciDeviceDeassertIntx there
  refine ⟨t, ran, inv.of_follows step.follows lines, ⟨step.follows, ?_⟩, step, low⟩
  intro e before
  by_cases same : e = d
  · subst same
    exact low
  · rw [step.others e same]
    exact before

/-! ### SR-IOV -/

theorem MachineInv.setSriov (change : SriovOnly (s.dev d) dev) :
    MachineInv topo (s.setDev d dev) ∧ Quiet topo s (s.setDev d dev) := by
  apply inv.setDev (.sriov change) (change.field PCIDevice.irqState fun _ _ _ => rfl)
  right
  apply pciIrqDisabled_congr
  intro i low
  have place := (inv.device d there).sriovPlace change.sriov
  unfold Span pciCommand at low
  unfold pciConfigSpaceSize at place
  exact (change.bytes i (.inl (by omega))).1

omit inv there in
theorem setSriovWmask_only (sriov : dev.sriovCap ≠ 0) (offset : Nat)
    (apart : offset + 2 ≤ pciSriovTotalVf ∨ pciSriovTotalVf + 2 ≤ offset) (val : UInt16) :
    SriovOnly dev { dev with wmask := pciSetWord dev.wmask (dev.sriovCap + offset) val } := by
  refine ⟨rfl, sriov, ?_⟩
  intro i kept
  refine ⟨rfl, pciSetWord_outside ?_⟩
  unfold Span at kept
  omega

/-- `pci_set_enabled` up to the reset. -/
theorem MachineInv.setEnabledDev (virtual : (s.dev d).pf.isSome) (state : Bool) :
    ∃ mapped, Pci.pciUpdateMappings topo.allow0 (s.pfOf d) { s.dev d with enabled := state } =
        .ok mapped ∧
      (∃ ioRegions, mapped = { s.dev d with enabled := state, ioRegions }) ∧
      MachineInv topo (s.setDev d (updateBusMaster mapped)) ∧
      Quiet topo s (s.setDev d (updateBusMaster mapped)) := by
  have enabled := (inv.device d there).with_enabled state
  obtain ⟨mapped, ran, same, -, -⟩ := enabled.2.pciUpdateMappings topo.allow0 (s.pfOf d)
  refine ⟨mapped, ran, ⟨_, same⟩, inv.setDev (.enable (s.pfOf d) state virtual ran) ?_ (.inr ?_)⟩
  · rw [same]
    rfl
  · rw [same]
    rfl

end

theorem sriovCtrl_only (sriov : dev.sriovCap ≠ 0) (val : UInt16) :
    SriovOnly dev
      { dev with config := pciSetWord dev.config (dev.sriovCap + pciSriovCtrl) val } := by
  refine ⟨rfl, sriov, ?_⟩
  intro i kept
  refine ⟨pciSetWord_outside ?_, rfl⟩
  unfold Span pciSriovTotalVf at kept
  unfold pciSriovCtrl
  omega

theorem resetVfBars_outside {sriovCap reg : Nat} {types : List UInt8} {config : Bytes} {i : Nat}
    (outside : i < sriovCap + pciSriovBar) : resetVfBars sriovCap reg types config i = config i := by
  induction types generalizing reg config with
  | nil => rfl
  | cons type rest ih =>
    rw [resetVfBars, ih]
    exact pciSetQuad_outside (by omega)

theorem resetSriovRegisters_only (sriov : dev.sriovCap ≠ 0) :
    SriovOnly dev (resetSriovRegisters dev) := by
  refine ⟨rfl, sriov, ?_⟩
  intro i kept
  have cases : i < dev.sriovCap ∨ dev.sriovCap + 0x0e ≤ i ∧ i < dev.sriovCap + 0x10 := kept
  have bars : pciSriovBar = 0x24 := rfl
  have numVf : pciSriovNumVf = 0x10 := rfl
  have pgsize : pciSriovSysPgsize = 0x20 := rfl
  have ctrl : pciSriovCtrl = 0x08 := rfl
  constructor
  · unfold resetSriovRegisters
    dsimp only
    rw [resetVfBars_outside (by omega), pciSetWord_outside (by omega),
      pciSetWord_outside (by omega)]
  · exact pciSetWord_outside (by omega)

/-- A reset of a VF, as the calls for its physical function rely on it. -/
def ResetsVf (topo : PciTopology) (bus : Nat)
    (deviceReset : PciState → Nat → Checked PciState) : Prop :=
  ∀ s vf, MachineInv topo s → s.present vf = true → topo.busOf vf = bus →
    (s.dev vf).sriovCap = 0 → ∃ t, deviceReset s vf = .ok t ∧ MachineInv topo t ∧ Quiet topo s t

section Sriov

variable {deviceReset : PciState → Nat → Checked PciState} (resets : ResetsVf topo bus deviceReset)

include resets

section

variable (inv : MachineInv topo s) (state : Bool) (there : s.present d = true)
  (sameBus : topo.busOf d = bus)
include inv state there sameBus

theorem MachineInv.pciSetEnabled (noVfs : (s.dev d).sriovCap = 0) (virtual : (s.dev d).pf.isSome) :
    ∃ t, Pci.pciSetEnabled topo deviceReset s d state = .ok t ∧ MachineInv topo t ∧
      Quiet topo s t := by
  unfold Pci.pciSetEnabled
  split
  · exact ⟨s, rfl, inv, .refl topo s⟩
  · obtain ⟨mapped, ran, ⟨_, same⟩, set⟩ := inv.setEnabledDev there virtual state
    have stillThere : (s.setDev d (updateBusMaster mapped)).present d = true := there
    rw [ran, bind_ok]
    rw [if_pos stillThere]
    obtain ⟨t, ranReset, kept, quiet⟩ := resets _ d set.1 stillThere sameBus (by
      rw [s.setDev_self, same]
      exact noVfs)
    exact ⟨t, ranReset, kept, set.2.trans quiet⟩

end

/-- A property of machines that what is done to a physical function and to its VFs keeps. -/
structure VfsKeep (topo : PciTopology) (deviceReset : PciState → Nat → Checked PciState) (d : Nat)
    (holds : PciState → Prop) : Prop where
  pf : ∀ s, holds s → (s.dev d).sriovCap ≠ 0 ∧
    (pciGetWord (s.dev d).config ((s.dev d).sriovCap + pciSriovTotalVf)).toNat =
      (s.dev d).vf.length
  sriov : ∀ s dev, holds s → SriovOnly (s.dev d) dev → holds (s.setDev d dev)
  vf : ∀ s vf state, holds s → vf ∈ (s.dev d).vf →
    ∃ t, pciSetEnabled topo deviceReset s vf state = .ok t ∧ holds t ∧
      (t.dev d).vf = (s.dev d).vf

theorem MachineInv.vfsKeep (inv : MachineInv topo s) (there : s.present d = true)
    (sameBus : topo.busOf d = bus) (sriov : (s.dev d).sriovCap ≠ 0) :
    VfsKeep topo deviceReset d (fun u => MachineInv topo u ∧ Quiet topo s u) where
  pf := by
    rintro u ⟨kept, quiet⟩
    have cap := inv.sriov_kept quiet.toFollows there sriov
    exact ⟨cap, (kept.device d (quiet.present ▸ there)).totalVf cap⟩
  sriov := by
    rintro u dev ⟨kept, quiet⟩ change
    obtain ⟨keptSet, quietSet⟩ := kept.setSriov (quiet.present ▸ there) change
    exact ⟨keptSet, quiet.trans quietSet⟩
  vf := by
    rintro u vf state ⟨kept, quiet⟩ member
    have thereU : u.present d = true := quiet.present ▸ there
    obtain ⟨present, onBus, noVfs, pf⟩ := kept.vfs d vf thereU member
    obtain ⟨t, ran, keptT, quietT⟩ := kept.pciSetEnabled resets state present
      (onBus.trans sameBus) noVfs (by rw [pf]; rfl)
    exact ⟨t, ran, ⟨keptT, quiet.trans quietT⟩, (kept.fixed quietT.toFollows thereU).vf⟩

end Sriov

section

variable {deviceReset : PciState → Nat → Checked PciState} {holds : PciState → Prop}
  (keeps : VfsKeep topo deviceReset d holds) (before : holds s)
include keeps before

theorem VfsKeep.setSriovWmask (offset : Nat)
    (apart : offset + 2 ≤ pciSriovTotalVf ∨ pciSriovTotalVf + 2 ≤ offset) (val : UInt16) :
    holds (Pci.setSriovWmask s d offset val) :=
  keeps.sriov s _ before (setSriovWmask_only (keeps.pf s before).1 offset apart val)

theorem VfsKeep.setVf (state : Bool) (i : Nat) :
    (∃ t, (readAt (s.dev d).vf i).bind (fun vf => pciSetEnabled topo deviceReset s vf state) =
      .ok t ∧ holds t ∧ (t.dev d).vf = (s.dev d).vf) ∨
    (s.dev d).vf.length ≤ i ∧ (readAt (s.dev d).vf i).bind
      (fun vf => pciSetEnabled topo deviceReset s vf state) = .error .outOfBounds := by
  cases found : (s.dev d).vf[i]? with
  | some vf =>
    rw [readAt_of_getElem? found, bind_ok]
    exact .inl (keeps.vf s vf state before (List.mem_of_getElem? found))
  | none =>
    rw [readAt, found]
    exact .inr ⟨List.getElem?_eq_none_iff.mp found, rfl⟩

/-- The loop over the VFs returns unless it goes past them. -/
theorem VfsKeep.setVfs (state : Bool) (count : Nat) :
    (∃ t, Pci.setVfs topo deviceReset d state count s = .ok t ∧ holds t) ∨
      (s.dev d).vf.length < count ∧
        Pci.setVfs topo deviceReset d state count s = .error .outOfBounds := by
  have turn (u v : PciState) (i : Nat) (_ : i ∈ List.range count)
      (kept : holds u ∧ (u.dev d).vf = (s.dev d).vf) (ran : (readAt (u.dev d).vf i).bind
        (fun vf => pciSetEnabled topo deviceReset u vf state) = .ok v) :
      holds v ∧ (v.dev d).vf = (s.dev d).vf := by
    obtain ⟨w, returns, after, same⟩ | ⟨-, stops⟩ := keeps.setVf kept.1 state i
    · cases ran.symm.trans returns
      exact ⟨after, same.trans kept.2⟩
    · cases ran.symm.trans stops
  cases ran : Pci.setVfs topo deviceReset d state count s with
  | ok t => exact .inl ⟨t, rfl, (forEach_keeps _ turn ⟨before, rfl⟩ ran).1⟩
  | error fault =>
    obtain ⟨i, member, u, kept, stopped⟩ := forEach_fault _ turn ⟨before, rfl⟩ ran
    obtain ⟨w, returns, -⟩ | ⟨beyond, stops⟩ := keeps.setVf kept.1 state i
    · cases stopped.symm.trans returns
    · cases stopped.symm.trans stops
      rw [kept.2] at beyond
      exact .inr ⟨Nat.lt_of_le_of_lt beyond (List.mem_range.mp member), rfl⟩

theorem VfsKeep.registerVfs :
    (∃ t, Pci.registerVfs topo deviceReset s d = .ok t ∧ holds t) ∨
      Pci.registerVfs topo deviceReset s d = .error .outOfBounds := by
  rw [Pci.registerVfs]
  obtain ⟨u, ran, kept⟩ | ⟨-, stopped⟩ := keeps.setVfs before true
    (pciGetWord (s.dev d).config ((s.dev d).sriovCap + pciSriovNumVf)).toNat
  · rw [ran]
    exact .inl ⟨_, rfl, keeps.setSriovWmask kept pciSriovNumVf (by decide) 0⟩
  · rw [stopped]
    exact .inr rfl

theorem VfsKeep.unregisterVfs :
    ∃ t, Pci.unregisterVfs topo deviceReset s d = .ok t ∧ holds t := by
  obtain ⟨u, ran, kept⟩ | ⟨beyond, -⟩ := keeps.setVfs before false
    (pciGetWord (s.dev d).config ((s.dev d).sriovCap + pciSriovTotalVf)).toNat
  · refine ⟨_, ?_, keeps.setSriovWmask kept pciSriovNumVf (by decide) 0xffff⟩
    rw [Pci.unregisterVfs, ran, bind_ok]
  · rw [(keeps.pf s before).2] at beyond
    exact absurd beyond (Nat.lt_irrefl _)

end

section

variable {deviceReset : PciState → Nat → Checked PciState} {holds : PciState → Prop}
  (before : holds s) (keeps : (s.dev d).sriovCap ≠ 0 → VfsKeep topo deviceReset d holds)
include before keeps

theorem pcieSriovPfReset_keeps :
    ∃ t, pcieSriovPfReset topo deviceReset s d = .ok t ∧ holds t := by
  by_cases sriov : (s.dev d).sriovCap = 0
  · exact ⟨s, if_pos sriov, before⟩
  · have keeps := keeps sriov
    obtain ⟨u, ran, kept⟩ := keeps.unregisterVfs
      (keeps.sriov s _ before (sriovCtrl_only sriov 0))
    refine ⟨_, ?_, keeps.sriov u _ kept (resetSriovRegisters_only (keeps.pf u kept).1)⟩
    simp only [pcieSriovPfReset, if_neg sriov, ran, bind_ok]

theorem pcieSriovConfigWrite_keeps (addr : Nat) (val : UInt32) (l : Nat) :
    (∃ t, pcieSriovConfigWrite topo deviceReset s d addr val l = .ok t ∧ holds t) ∨
      pcieSriovConfigWrite topo deviceReset s d addr val l = .error .outOfBounds := by
  unfold pcieSriovConfigWrite
  dsimp only
  split
  · exact .inl ⟨s, rfl, before⟩
  next inside =>
  have keeps := keeps fun none => inside (.inl none)
  split
  · exact .inl ⟨s, rfl, before⟩
  split
  · split
    · exact keeps.registerVfs before
    · exact .inl (keeps.unregisterVfs before)
  split
  · exact .inl ⟨_, rfl, keeps.setSriovWmask before pciSriovCtrl (by decide) _⟩
  · exact .inl ⟨s, rfl, before⟩

end

/-! ### The reset of one function -/

section

variable (inv : MachineInv topo s) (there : s.present d = true)
include inv there

/-- A reset up to SR-IOV: the pins go low, and the function makes its move. -/
theorem MachineInv.resetOwn :
    ∃ u dev, Pci.pciDeviceDeassertIntx topo s d = .ok u ∧ IrqStep d s u ∧
      (u.dev d).irqState = 0 ∧ MachineInv topo u ∧
      Pci.resetLocal topo.allow0 (u.pfOf d) (u.dev d) = .ok dev ∧ dev.irqState = 0 ∧
      MachineInv topo (u.setDev d dev) ∧ Quiet topo s (u.setDev d dev) := by
  obtain ⟨u, ranIrq, kept, quiet, step, low⟩ := inv.pciDeviceDeassertIntx there
  have invU := kept.device d (quiet.present ▸ there)
  obtain ⟨mapped, -, ranReset, same, -, -⟩ := invU.resetLocal topo.allow0 (u.pfOf d)
  have move : DeviceMove topo.allow0 (u.dev d) (msixReset (msiReset mapped)) := by
    apply DeviceMove.reset (u.pfOf d) _ ranReset
    intro noPf
    rw [PciState.pfOf, noPf, Option.map_none]
  have irqState : (msixReset (msiReset mapped)).irqState = (u.dev d).irqState := by
    have few := Nat.le_of_eq invU.resetConfig.2.regionCount
    rw [(msixReset_changesOnly _).field PCIDevice.irqState fun _ _ => rfl,
      (msiReset_changesOnly _).field PCIDevice.irqState fun _ _ => rfl, same]
    rw [(pciResetRegions_changesOnly _ few).field PCIDevice.irqState fun _ _ => rfl,
      (resetConfig_changesOnly _).field PCIDevice.irqState fun _ _ => rfl]
  obtain ⟨keptReset, quietReset⟩ := kept.setDev move irqState (.inl low)
  exact ⟨u, _, ranIrq, step, low, kept, ranReset, irqState.trans low, keptReset,
    quiet.trans quietReset⟩

theorem MachineInv.pciDoDeviceReset (deviceReset : PciState → Nat → Checked PciState)
    (resets : (s.dev d).sriovCap ≠ 0 → ResetsVf topo (topo.busOf d) deviceReset) :
    ∃ t, Pci.pciDoDeviceReset topo deviceReset s d = .ok t ∧ MachineInv topo t ∧
      Quiet topo s t ∧ (t.dev d).irqState = 0 := by
  obtain ⟨u, dev, ranIrq, step, low, -, ranReset, lowReset, kept, quiet⟩ := inv.resetOwn there
  have thereU : u.present d = true := step.present ▸ there
  have fixed := inv.fixed quiet.toFollows there
  obtain ⟨t, ran, keptEnd, quietEnd⟩ := pcieSriovPfReset_keeps ⟨kept, .refl topo _⟩
    fun sriov => kept.vfsKeep (resets (fixed.sriovCap ▸ sriov)) thereU rfl sriov
  refine ⟨t, ?_, keptEnd, quiet.trans quietEnd, ?_⟩
  · rw [Pci.pciDoDeviceReset, ranIrq, bind_ok, if_neg (not_not.mpr low), ranReset, bind_ok, ran]
  · apply quietEnd.low
    rw [u.setDev_self, lowReset]

end

/-! ### What is behind a bus -/

/-- The function is on a bus or behind one of its bridges. -/
inductive UnderBus (topo : PciTopology) (d : Nat) : Nat → Prop
  | here : UnderBus topo d (topo.busOf d)
  | behind (bridge bus : Nat) (parent : topo.parentDev bus = some bridge)
      (below : UnderBus topo d bus) : UnderBus topo d (topo.busOf bridge)

/-- What a bridge is under, the functions behind it are. -/
theorem UnderBus.of_parent {bridge : Nat} (parent : topo.parentDev (topo.busOf d) = some bridge)
    (above : UnderBus topo bridge bus) : UnderBus topo d bus := by
  induction above with
  | here => exact .behind bridge _ parent .here
  | behind other next up _ ih => exact .behind other next up ih

/-- A line is at a bus above the function. -/
theorem UnderBus.of_routeFrom {irqNum line : Int}
    (route : routeFrom topo fuel d irqNum = .ok (bus, line)) : UnderBus topo d bus := by
  induction fuel generalizing d irqNum with
  | zero => cases route
  | succ fuel ih =>
    rw [routeFrom] at route
    split at route
    · cases route
    · split at route
      · cases route
        exact .here
      · split at route
        · cases route
        · next parent up => exact .of_parent up (ih route)

/-- The bus above a realized function exists, and so does its bridge. -/
theorem UnderBus.exists (under : UnderBus topo d bus) (inv : PciInv topo s)
    (there : s.present d = true) : bus < topo.nbuses ∧
      ∀ bridge, topo.parentDev bus = some bridge → s.present bridge = true := by
  induction under with
  | here => exact ⟨topo.lt_of_mem _ d (inv.slot d there), fun bridge => inv.bridged d bridge there⟩
  | behind bridge bus parent _ ih =>
    have present := ih.2 bridge parent
    exact ⟨topo.lt_of_mem _ bridge (inv.slot bridge present),
      fun other => inv.bridged bridge other present⟩

/-! ### Resets of functions and buses -/

/-- A call returns, and leaves the functions that it is for low. -/
def Clears (topo : PciTopology) (call : Checked PciState) (s : PciState)
    (cleared : Nat → Prop) : Prop :=
  ∃ t, call = .ok t ∧ MachineInv topo t ∧ Quiet topo s t ∧
    ∀ d, cleared d → s.present d = true → (t.dev d).irqState = 0

theorem MachineInv.forEach (inv : MachineInv topo s) (step : PciState → Nat → Checked PciState)
    (items : List Nat) (cleared : Nat → Nat → Prop)
    (steps : ∀ t item, item ∈ items → MachineInv topo t → t.present = s.present →
      Clears topo (step t item) t (cleared item)) :
    Clears topo (Library.forEach step items s) s (fun d => ∃ item ∈ items, cleared item d) := by
  obtain ⟨t, ran, ⟨kept, quiet⟩, low, -⟩ := forEach_establishes
    (fun t => MachineInv topo t ∧ Quiet topo s t)
    (fun item t => ∀ d, cleared item d → s.present d = true → (t.dev d).irqState = 0) (by
      intro u item member before
      obtain ⟨v, ranStep, kept, quiet, low⟩ := steps u item member before.1 before.2.present
      refine ⟨v, ranStep, ⟨kept, before.2.trans quiet⟩, ?_, ?_⟩
      · intro d clears there
        exact low d clears (before.2.present ▸ there)
      · intro other done d clears there
        exact quiet.low d (done d clears there))
    ⟨inv, .refl topo s⟩
  refine ⟨t, ran, kept, quiet, ?_⟩
  intro d clears there
  obtain ⟨item, member, clears⟩ := clears
  exact low item member d clears there

theorem mem_onBus : d ∈ onBus topo s b ↔ d ∈ topo.slots b ∧ s.present d = true :=
  List.mem_filter

/-- The counts of a bus are clear once no function behind it has a pin high. -/
theorem MachineInv.irqCountsClear (inv : MachineInv topo s)
    (low : ∀ d, UnderBus topo d b → s.present d = true → (s.dev d).irqState = 0) :
    Pci.irqCountsClear topo s b = true := by
  unfold Pci.irqCountsClear
  rw [List.all_eq_true]
  intro line _
  have empty : routedTo topo b line (asserting topo s) = ∅ := by
    apply Finset.eq_empty_of_forall_notMem
    intro p member
    obtain ⟨asserts, route⟩ := Finset.mem_filter.mp member
    obtain ⟨-, there, drives⟩ := mem_asserting.mp asserts
    rw [driven_eq_false (low p.1 (.of_routeFrom route) there)] at drives
    cases drives
  rw [beq_iff_eq, inv.counted.count, empty]
  rfl

/-- The depth of calls that a reset of a function needs. -/
def resetNeed (topo : PciTopology) (s : PciState) : ResetCall → Nat
  | .device d => 3 * (topo.nbuses - topo.busOf d) - if (s.dev d).sriovCap = 0 then 1 else 0
  | .cold d => 3 * (topo.nbuses - topo.busOf d) - 2
  | .bus b => 3 * (topo.nbuses - b)

def resetTarget (topo : PciTopology) : ResetCall → Nat → Prop
  | .device d, e => e = d
  | .cold d, e => ∃ b ∈ topo.childBus d, UnderBus topo e b
  | .bus b, e => UnderBus topo e b

def resetMeant (topo : PciTopology) (s : PciState) : ResetCall → Prop
  | .device d | .cold d => s.present d = true
  | .bus b => b < topo.nbuses

/-- The resets that need no more than `fuel` calls do what they are for. -/
def ResetsWithin (topo : PciTopology) (fuel : Nat) : Prop :=
  ∀ call t, MachineInv topo t → resetMeant topo t call → resetNeed topo t call ≤ fuel →
    Clears topo (reset topo fuel call t) t (resetTarget topo call)

section

variable (inv : MachineInv topo s)
include inv

theorem MachineInv.reset_device (there : s.present d = true)
    (enough : resetNeed topo s (.device d) ≤ fuel + 1) (deeper : ResetsWithin topo fuel) :
    Clears topo (reset topo (fuel + 1) (.device d) s) s (· = d) := by
  rw [resetNeed] at enough
  obtain ⟨u, ranCold, kept, quiet, -⟩ := deeper (.cold d) s inv there (by
    rw [resetNeed]
    split at enough <;> omega)
  have fixed := inv.fixed quiet.toFollows there
  obtain ⟨t, ran, keptEnd, quietEnd, low⟩ := kept.pciDoDeviceReset (quiet.present ▸ there)
      (fun s vf => reset topo fuel (.device vf) s) (by
    rw [fixed.sriovCap]
    intro sriov v vf invV thereV sameBus noVfs
    rw [if_neg sriov] at enough
    obtain ⟨w, ranVf, keptVf, quietVf, -⟩ := deeper (.device vf) v invV thereV (by
      rw [resetNeed]
      rw [if_pos noVfs, sameBus]
      omega)
    exact ⟨w, ranVf, keptVf, quietVf⟩)
  refine ⟨t, ?_, keptEnd, quiet.trans quietEnd, ?_⟩
  · rw [reset, ranCold, bind_ok, ran]
  · intro e same _
    rw [same]
    exact low

theorem MachineInv.reset_cold (enough : resetNeed topo s (.cold d) ≤ fuel + 1)
    (deeper : ResetsWithin topo fuel) :
    Clears topo (reset topo (fuel + 1) (.cold d) s) s (resetTarget topo (.cold d)) := by
  rw [resetNeed] at enough
  refine inv.forEach _ _ (fun b e => UnderBus topo e b) ?_
  intro t b member kept _
  obtain ⟨bound, parent⟩ := (topo.mem_childBus b d).mp member
  have younger := topo.parent_lt b d parent
  exact deeper (.bus b) t kept bound (by
    rw [resetNeed]
    omega)

theorem MachineInv.reset_bus (bound : b < topo.nbuses)
    (enough : resetNeed topo s (.bus b) ≤ fuel + 1) (deeper : ResetsWithin topo fuel) :
    Clears topo (reset topo (fuel + 1) (.bus b) s) s (resetTarget topo (.bus b)) := by
  rw [resetNeed] at enough
  obtain ⟨u, ranCold, keptU, quietU, lowU⟩ := inv.forEach
      (fun s d => reset topo fuel (.cold d) s) (onBus topo s b)
      (fun d => resetTarget topo (.cold d)) (by
    intro t d member kept present
    obtain ⟨slot, there⟩ := mem_onBus.mp member
    have thereT : t.present d = true := present ▸ there
    exact deeper (.cold d) t kept thereT (by
      rw [resetNeed]
      rw [topo.busOf_of_mem b d slot]
      omega))
  obtain ⟨t, ranHold, kept, quiet, low⟩ := keptU.forEach
      (fun s d => Pci.pciDoDeviceReset topo (fun s vf => reset topo fuel (.device vf) s) s d)
      (onBus topo u b) (fun d e => e = d) (by
    intro v d member keptV present
    obtain ⟨slot, there⟩ := mem_onBus.mp member
    obtain ⟨w, ran, keptW, quietW, lowW⟩ := keptV.pciDoDeviceReset (present ▸ there)
        (fun s vf => reset topo fuel (.device vf) s) (by
      intro _ x vf invX thereX sameBus noVfs
      obtain ⟨y, ranVf, keptVf, quietVf, -⟩ := deeper (.device vf) x invX thereX (by
        rw [resetNeed]
        rw [if_pos noVfs, sameBus, topo.busOf_of_mem b d slot]
        omega)
      exact ⟨y, ranVf, keptVf, quietVf⟩)
    exact ⟨w, ran, keptW, quietW, fun e same _ => same ▸ lowW⟩)
  have all : ∀ e, UnderBus topo e b → s.present e = true → (t.dev e).irqState = 0 := by
    intro e under there
    cases under with
    | here =>
      have thereU : u.present e = true := quietU.present ▸ there
      exact low e ⟨e, mem_onBus.mpr ⟨inv.slot e there, thereU⟩, rfl⟩ thereU
    | behind bridge bus parent below =>
      obtain ⟨busBound, bridges⟩ := below.exists inv.toPciInv there
      have bridgeThere := bridges bridge parent
      apply quiet.low
      apply lowU e _ there
      exact ⟨bridge, mem_onBus.mpr ⟨inv.slot bridge bridgeThere, bridgeThere⟩, bus,
        (topo.mem_childBus bus bridge).mpr ⟨busBound, parent⟩, below⟩
  have clear : Pci.irqCountsClear topo t b = true := by
    apply kept.irqCountsClear
    intro e under there
    rw [quiet.present, quietU.present] at there
    exact all e under there
  refine ⟨t, ?_, kept, quietU.trans quiet, all⟩
  rw [reset, ranCold, bind_ok, ranHold, bind_ok, clear]
  rfl

theorem MachineInv.reset (call : ResetCall) (meant : resetMeant topo s call)
    (enough : resetNeed topo s call ≤ fuel) :
    Clears topo (Pci.reset topo fuel call s) s (resetTarget topo call) := by
  induction fuel generalizing s call with
  | zero =>
    -- Every call that is meant needs some depth.
    exfalso
    cases call with
    | bus b =>
      unfold resetMeant at meant
      rw [resetNeed] at enough
      omega
    | device d =>
      have bus := topo.lt_of_mem _ d (inv.slot d meant)
      rw [resetNeed] at enough
      split at enough <;> omega
    | cold d =>
      have bus := topo.lt_of_mem _ d (inv.slot d meant)
      rw [resetNeed] at enough
      omega
  | succ fuel ih =>
    have deeper : ResetsWithin topo fuel :=
      fun call t inv meant enough => ih inv call meant enough
    cases call with
    | device d => exact inv.reset_device meant enough deeper
    | cold d => exact inv.reset_cold enough deeper
    | bus b => exact inv.reset_bus meant enough deeper

theorem MachineInv.pciDeviceReset (there : s.present d = true) :
    Clears topo (Pci.pciDeviceReset topo s d) s (· = d) := by
  refine inv.reset (.device d) there ?_
  rw [resetNeed, resetFuel]
  split <;> omega

theorem MachineInv.busColdReset (bound : b < topo.nbuses) :
    Clears topo (Pci.busColdReset topo s b) s (UnderBus topo · b) := by
  refine inv.reset (.bus b) bound ?_
  rw [resetNeed, resetFuel]
  omega

end

end QemuGzvm.Pci
