import QemuGzvm.Pci.ResetRuns

/-!
Contract: the runs of a PCI machine and the invariant along them.

Owns:
- that configuration writes and unrealize keep `MachineInv`;
- `PciMachine`, a machine as its realization leaves it, and the system of its runs;
- `Advances`, what a step does to the functions that stay.
-/

namespace QemuGzvm.Pci

open QemuGzvm.Library

variable {topo : PciTopology} {s t u : PciState} {d addr l : Nat} {val : UInt32} {allow0 : Bool}
  {dev e : PCIDevice} {pf : Option PCIDevice}

/-! ### Configuration writes -/

theorem writeConfigLocal_field {α : Type} (ran : writeConfigLocal allow0 pf dev addr val l = .ok e)
    (project : PCIDevice → α) (ignores : ∀ (dev : PCIDevice) config ioRegions,
      project { dev with config, ioRegions } = project dev) : project e = project dev := by
  obtain ⟨written, writes, ran⟩ := writeConfigLocal_eq_ok ran
  have first := writes.only.field project fun dev config => ignores dev config dev.ioRegions
  have second := (pciPmUpdate_changesOnly written addr l (pciPmState dev)).field project
    fun dev config => ignores dev config dev.ioRegions
  rw [← first, ← second]
  split at ran
  · rw [(pciUpdateMappings_kind ran).1]
    exact ignores _ _ _
  · cases ran
    rfl

theorem writeConfigLocal_bytes (inv : DeviceInv dev)
    (ran : writeConfigLocal allow0 pf dev addr val l = .ok e) {i : Nat} (outside : ¬Span addr l i)
    (header : i < pciConfigHeaderSize) :
    e.config i = dev.config i := by
  obtain ⟨written, writes, ran⟩ := writeConfigLocal_eq_ok ran
  have pmCap := writes.only.field PCIDevice.pmCap fun _ _ => rfl
  rw [← writes.only.bytes i outside,
    ← (pciPmUpdate_changesOnly written addr l (pciPmState dev)).bytes i]
  · split at ran
    · rw [(pciUpdateMappings_kind ran).1]
    · cases ran
      rfl
  · rw [pmCap]
    intro inside
    obtain ⟨cap, present, low, -⟩ := inside
    have place := (inv.pmPlace cap present).1
    omega

/-- Only one function changes, and its header stays. -/
structure TouchesAbove (d : Nat) (s t : PciState) : Prop where
  others : ∀ e, e ≠ d → t.dev e = s.dev e
  own : LeavesHeader (s.dev d) (t.dev d)

theorem TouchesAbove.refl (d : Nat) (s : PciState) : TouchesAbove d s s :=
  ⟨fun _ _ => rfl, .refl _⟩

theorem TouchesAbove.trans (first : TouchesAbove d s t) (second : TouchesAbove d t u) :
    TouchesAbove d s u :=
  ⟨fun e other => (second.others e other).trans (first.others e other), first.own.trans second.own⟩

theorem IrqStep.touchesAbove (step : IrqStep d s t) : TouchesAbove d s t :=
  ⟨step.others, step.own.leavesHeader⟩

/-- `pci_device_reset` as the calls for VFs rely on it. -/
theorem resetsVf_pciDeviceReset (topo : PciTopology) (bus : Nat) :
    ResetsVf topo bus (pciDeviceReset topo) := by
  intro s vf inv there _ _
  obtain ⟨t, ran, kept, quiet, -⟩ := inv.pciDeviceReset there
  exact ⟨t, ran, kept, quiet⟩

section

variable (inv : MachineInv topo s) (there : s.present d = true)
include inv there

theorem MachineInv.writeCommand
    (wrote : writeConfigLocal topo.allow0 (s.pfOf d) (s.dev d) addr val l = .ok dev)
    (ran : (if rangesOverlap addr l pciCommand 2 then
        (Pci.pciUpdateIrqDisabled topo (s.setDev d dev) d (pciIrqDisabled (s.dev d))).bind fun s =>
          .ok (s.setDev d (Pci.updateBusMaster (s.dev d)))
      else .ok (s.setDev d dev)) = .ok t) :
    MachineInv topo t ∧ Follows topo s t ∧
      t.dev = Function.update s.dev d
        (if rangesOverlap addr l pciCommand 2 then Pci.updateBusMaster dev else dev) := by
  have own : (s.pfOf d) = none ∨ (s.dev d).pf ≠ none := by
    grind [PciState.pfOf]
  have move := DeviceMove.write (s.pfOf d) addr val l
    (fun noPf => own.resolve_right (not_not.mpr noPf)) wrote
  have irqState := writeConfigLocal_field wrote PCIDevice.irqState fun _ _ _ => rfl
  split at ran
  · next overlaps =>
    rw [if_pos overlaps] at move
    obtain ⟨middle, toggled, ran⟩ := bind_eq_ok.mp ran
    cases ran
    obtain ⟨lines, kept⟩ := inv.toLineInv.pciUpdateIrqDisabled there irqState toggled
    have same : middle.dev d = dev := by
      rw [lines.dev, s.setDev_self]
    have keptEnd : LineInv topo (middle.setDev d (Pci.updateBusMaster (middle.dev d))) :=
      (kept.setDev d (Pci.updateBusMaster (middle.dev d)) rfl (.inr rfl)).1
    have devs : (middle.setDev d (Pci.updateBusMaster (middle.dev d))).dev =
        Function.update s.dev d (Pci.updateBusMaster dev) := by
      unfold PciState.setDev
      rw [same, lines.dev]
      exact Function.update_idem _ _ _
    have follows : Follows topo s (middle.setDev d (Pci.updateBusMaster (middle.dev d))) := by
      refine ⟨lines.present, ?_⟩
      rw [devs]
      exact (Follows.setDev (.single move)).moves
    rw [if_pos overlaps]
    exact ⟨inv.of_follows follows keptEnd, follows, devs⟩
  · next apart =>
    rw [if_neg apart] at move
    cases ran
    have command : pciIrqDisabled dev = pciIrqDisabled (s.dev d) := by
      have outside := rangesOverlap_eq_false.mp (Bool.eq_false_of_not_eq_true apart)
      apply pciIrqDisabled_congr
      intro i inside
      unfold Span pciCommand at inside
      unfold pciCommand at outside
      apply writeConfigLocal_bytes (inv.device d there) wrote (not_span.mpr (by omega))
      unfold pciConfigHeaderSize
      omega
    obtain ⟨kept, quiet⟩ := inv.setDev move irqState (.inr command)
    rw [if_neg apart]
    exact ⟨kept, quiet.toFollows, rfl⟩

theorem MachineInv.msiWriteConfig (addr l : Nat) :
    ∃ t, Pci.msiWriteConfig topo s d addr l = .ok t ∧ MachineInv topo t ∧ Quiet topo s t ∧
      TouchesAbove d s t := by
  unfold Pci.msiWriteConfig
  split
  · exact ⟨s, rfl, inv, .refl topo s, .refl d s⟩
  next cap present =>
  dsimp only
  split
  · exact ⟨s, rfl, inv, .refl topo s, .refl d s⟩
  split
  · exact ⟨s, rfl, inv, .refl topo s, .refl d s⟩
  obtain ⟨u, ran, kept, quiet, step, -⟩ := inv.pciDeviceDeassertIntx there
  have place := (inv.device d there).msiPlace cap present
  have flags : pciGetWord (s.dev d).config (cap + pciMsiFlags) =
      pciGetWord (u.dev d).config (cap + pciMsiFlags) := by
    apply pciGetWord_congr
    intro i low _
    unfold pciConfigHeaderSize at place
    exact (step.own.bytes i (by unfold pciStatus; omega)).symm
  have presentU : (u.dev d).msiCap = some cap := by
    rw [step.own.field PCIDevice.msiCap fun _ _ _ => rfl]
    exact present
  have change := msiWriteLocal_registers presentU
  have leaves := change.leavesHeader
    fun _ => (kept.device d (quiet.present ▸ there)).msiRegisters_above
  have set := kept.setDev (.msi cap presentU)
    (change.field PCIDevice.irqState fun _ _ => rfl) (.inr (pciIrqDisabled_congr (by
      intro i inside
      unfold Span pciCommand at inside
      exact leaves.header i (by unfold pciConfigHeaderSize; omega) (by unfold pciStatus; omega))))
  refine ⟨_, ?_, set.1, quiet.trans set.2, step.touchesAbove.trans ⟨?_, ?_⟩⟩
  · rw [ran, bind_ok, flags]
  · exact fun e other => u.setDev_of_ne other _
  · rw [u.setDev_self]
    exact leaves

theorem MachineInv.msixWriteConfig (addr l : Nat) :
    ∃ t, Pci.msixWriteConfig topo s d addr l = .ok t ∧ MachineInv topo t ∧ Quiet topo s t ∧
      TouchesAbove d s t := by
  unfold Pci.msixWriteConfig
  split
  · exact ⟨s, rfl, inv, .refl topo s, .refl d s⟩
  split
  · exact ⟨s, rfl, inv, .refl topo s, .refl d s⟩
  split
  · exact ⟨s, rfl, inv, .refl topo s, .refl d s⟩
  obtain ⟨u, ran, kept, quiet, step, -⟩ := inv.pciDeviceDeassertIntx there
  exact ⟨u, ran, kept, quiet, step.touchesAbove⟩

theorem MachineInv.pcieSriovConfigWrite (addr : Nat) (val : UInt32) (l : Nat) :
    (∃ t, Pci.pcieSriovConfigWrite topo (Pci.pciDeviceReset topo) s d addr val l = .ok t ∧
      MachineInv topo t ∧ Quiet topo s t) ∨
    Pci.pcieSriovConfigWrite topo (Pci.pciDeviceReset topo) s d addr val l =
      .error .outOfBounds :=
  pcieSriovConfigWrite_keeps ⟨inv, .refl topo s⟩
    (inv.vfsKeep (resetsVf_pciDeviceReset topo _) there rfl) addr val l

theorem MachineInv.pciDefaultWriteConfig
    (ran : Pci.pciDefaultWriteConfig topo s d addr val l = .ok t) :
    MachineInv topo t ∧ Follows topo s t := by
  unfold Pci.pciDefaultWriteConfig at ran
  obtain ⟨dev, wrote, ran⟩ := bind_eq_ok.mp ran
  obtain ⟨first, ranFirst, ran⟩ := bind_eq_ok.mp ran
  obtain ⟨second, ranMsi, ran⟩ := bind_eq_ok.mp ran
  obtain ⟨third, ranMsix, ran⟩ := bind_eq_ok.mp ran
  obtain ⟨keptFirst, followsFirst, -⟩ := inv.writeCommand there wrote ranFirst
  have thereFirst : first.present d = true := followsFirst.present ▸ there
  obtain ⟨_, ranMsi', keptSecond, quietSecond, -⟩ :=
    keptFirst.msiWriteConfig thereFirst addr l
  rw [ranMsi] at ranMsi'
  cases ranMsi'
  have thereSecond : second.present d = true := quietSecond.present ▸ thereFirst
  obtain ⟨_, ranMsix', keptThird, quietThird, -⟩ :=
    keptSecond.msixWriteConfig thereSecond addr l
  rw [ranMsix] at ranMsix'
  cases ranMsix'
  obtain ⟨_, ranSriov, kept, quiet⟩ | stops :=
    keptThird.pcieSriovConfigWrite (quietThird.present ▸ thereSecond) addr val l
  swap
  · cases ran.symm.trans stops
  cases ran.symm.trans ranSriov
  exact ⟨kept, followsFirst.trans
    (quietSecond.toFollows.trans (quietThird.toFollows.trans quiet.toFollows))⟩

end

/-! ### Unrealize -/

theorem PciInv.pciQdevUnrealize (inv : PciInv topo s) (there : s.present d = true)
    (alone : ∀ e, s.present e = true → topo.parentDev (topo.busOf e) ≠ some d)
    (ran : Pci.pciQdevUnrealize topo s d = .ok t) :
    PciInv topo t ∧ t.present = Function.update s.present d false ∧
      ∀ e, e ≠ d → t.dev e = s.dev e := by
  obtain ⟨regions, -, ran⟩ := bind_eq_ok.mp ran
  obtain ⟨u, ranIrq, ran⟩ := bind_eq_ok.mp ran
  cases ran
  have unmapped : LineInv topo (s.setDev d { s.dev d with ioRegions := regions }) :=
    (inv.toLineInv.setDev d { s.dev d with ioRegions := regions } rfl (.inr rfl)).1
  obtain ⟨_, ranIrq', lines, step, low⟩ := unmapped.pciDeviceDeassertIntx there
  rw [ranIrq] at ranIrq'
  cases ranIrq'
  have others : ∀ e, e ≠ d → u.dev e = s.dev e := by
    intro e other
    rw [step.others e other]
    exact s.setDev_of_ne other _
  have present : u.present = s.present := step.present
  have gone : ∀ e, Function.update u.present d false e = true ↔ e ≠ d ∧ s.present e = true := by
    grind
  refine ⟨{ small := ?_, slot := ?_, counted := ?_, device := ?_, bridged := ?_ }, ?_, others⟩
  · exact fun e left => lines.small e (by rw [present]; exact ((gone e).mp left).2)
  · exact fun e left => inv.slot e ((gone e).mp left).2
  · refine lines.counted.congr rfl rfl ?_
    ext p
    rw [mem_asserting, mem_asserting]
    rw [gone, present]
    by_cases same : p.1 = d
    · rw [same, driven_eq_false low]
      simp
    · simp [same]
  · grind [PciInv]
  · grind [PciInv]
  · dsimp only
    rw [present]

/-- Behind what can be unrealized there is no function. -/
theorem canUnrealize_alone (inv : MachineInv topo s) (can : canUnrealize topo s d = true) :
    ∀ e ∈ d :: (s.dev d).vf, ∀ x, s.present x = true →
      topo.parentDev (topo.busOf x) ≠ some e := by
  intro e member x there parent
  unfold canUnrealize at can
  rw [Bool.and_eq_true, List.all_eq_true] at can
  have buses := List.all_eq_true.mp (can.2 e member)
  have slot := inv.slot x there
  have empty := buses (topo.busOf x)
    ((topo.mem_childBus _ e).mpr ⟨topo.lt_of_mem _ x slot, parent⟩)
  rw [List.isEmpty_iff] at empty
  have here : x ∈ onBus topo s (topo.busOf x) := mem_onBus.mpr ⟨slot, there⟩
  rw [empty] at here
  cases here

theorem MachineInv.unrealize (inv : MachineInv topo s) (there : s.present d = true)
    (can : canUnrealize topo s d = true)
    (ran : unrealizeAll topo s ((s.dev d).vf.filter s.present ++ [d]) = .ok t) :
    MachineInv topo t ∧ ∀ e, t.present e = true → s.present e = true ∧ t.dev e = s.dev e := by
  have alone := canUnrealize_alone inv can
  have noPf : (s.dev d).pf = none := by
    unfold canUnrealize at can
    rw [Bool.and_eq_true] at can
    exact Option.isNone_iff_eq_none.mp can.1
  have member : ∀ e, e ∈ (s.dev d).vf.filter s.present ++ [d] →
      e ∈ d :: (s.dev d).vf ∧ s.present e = true := by
    grind
  have nodup : ((s.dev d).vf.filter s.present ++ [d]).Nodup := by
    grind [MachineInv]
  -- The functions still to be unrealized are there, and what is there is as it was.
  have loop := forEach_suffix
    (fun rest u => PciInv topo u ∧ rest.Nodup ∧
      (∀ e ∈ rest, e ∈ (s.dev d).vf.filter s.present ++ [d]) ∧
      (∀ e, u.present e = true ↔ s.present e = true ∧
        (e ∈ (s.dev d).vf.filter s.present ++ [d] → e ∈ rest)) ∧
      ∀ e, u.present e = true → u.dev e = s.dev e) (by
    intro e rest u v before step
    obtain ⟨kept, nodupRest, inside, present, same⟩ := before
    have thereU : u.present e = true :=
      (present e).mpr ⟨(member e (inside e List.mem_cons_self)).2, fun _ => List.mem_cons_self⟩
    obtain ⟨keptV, presentV, others⟩ := kept.pciQdevUnrealize thereU
      (fun x thereX => alone e (member e (inside e List.mem_cons_self)).1 x
        ((present x).mp thereX).1) step
    have left : ∀ x, v.present x = true ↔ x ≠ e ∧ u.present x = true := by
      intro x
      rw [presentV]
      by_cases itself : x = e
      · subst itself
        rw [Function.update_self]
        simp
      · rw [Function.update_of_ne itself]
        simp [itself]
    refine ⟨keptV, (List.nodup_cons.mp nodupRest).2,
      fun x later => inside x (List.mem_cons_of_mem _ later), ?_, ?_⟩
    · grind
    · grind)
    ⟨inv.toPciInv, nodup, fun _ => id, fun e => ⟨fun holds => ⟨holds, id⟩, And.left⟩,
      fun _ _ => rfl⟩ ran
  obtain ⟨kept, -, -, present, same⟩ := loop
  have stays : ∀ e, t.present e = true → s.present e = true ∧
      e ∉ (s.dev d).vf.filter s.present ++ [d] := by
    grind
  refine ⟨{ toPciInv := kept, vfNodup := ?_, vfs := ?_ },
    fun e thereT => ⟨(stays e thereT).1, same e thereT⟩⟩
  · intro e thereT
    rw [same e thereT]
    exact inv.vfNodup e (stays e thereT).1
  · grind [MachineInv]

/-! ### Runs -/

structure PciMachine where
  topo : PciTopology
  start : PciState
  device : ∀ d, start.present d = true → DeviceInv (start.dev d)
  /-- `do_pci_register_device` -/
  low : ∀ d, start.present d = true → (start.dev d).irqState = 0
  slot : ∀ d, start.present d = true → d ∈ topo.slots (topo.busOf d)
  bridged : ∀ d bridge, start.present d = true →
    topo.parentDev (topo.busOf d) = some bridge → start.present bridge = true
  vfNodup : ∀ d, start.present d = true → (start.dev d).vf.Nodup
  /-- `pcie_sriov_pf_init` -/
  vfs : ∀ d vf, start.present d = true → vf ∈ (start.dev d).vf →
    start.present vf = true ∧ topo.busOf vf = topo.busOf d ∧ (start.dev vf).sriovCap = 0 ∧
      (start.dev vf).pf = some d
  counts : ∀ bus line, start.irqCount bus line = 0
  levels : ∀ bus line, start.level bus line = false

namespace PciMachine

variable (machine : PciMachine)

def system : LabelledSystem PciState PciOp :=
  .ofNext machine.start (PciOp.next machine.topo)

theorem start_inv : MachineInv machine.topo machine.start := by
  have none : asserting machine.topo machine.start = ∅ := by
    apply Finset.eq_empty_of_forall_notMem
    intro p member
    obtain ⟨-, there, drives⟩ := mem_asserting.mp member
    rw [driven_eq_false (machine.low p.1 there)] at drives
    cases drives
  refine
    { small := ?_, slot := machine.slot, counted := ⟨?_, ?_, ?_⟩, device := machine.device,
      bridged := machine.bridged, vfNodup := machine.vfNodup, vfs := machine.vfs }
  · intro d there
    rw [machine.low d there]
    decide
  · intro bus line
    rw [none, machine.counts]
    rfl
  · intro bus line
    rw [machine.levels, machine.counts]
    rfl
  · intro p member
    rw [none] at member
    exact absurd member (Finset.notMem_empty p)

end PciMachine

/-- The functions that are still there were there, and made moves. -/
def Advances (topo : PciTopology) (s t : PciState) : Prop :=
  ∀ d, t.present d = true → s.present d = true ∧ DeviceMoves topo.allow0 (s.dev d) (t.dev d)

theorem Follows.advances (follows : Follows topo s t) : Advances topo s t :=
  fun d there => ⟨follows.present ▸ there, follows.moves d⟩

theorem MachineInv.next {op : PciOp} (inv : MachineInv topo s) (step : op.next topo s = some t) :
    MachineInv topo t ∧ Advances topo s t := by
  unfold PciOp.next at step
  split at step
  swap
  · cases step
  next can =>
  have ran := toOption_eq_some.mp step
  cases op with
  | irq d pin level =>
    obtain ⟨lines, irq, -⟩ := inv.toLineInv.pciIrqHandler can ran
    exact ⟨inv.of_follows irq.follows lines, irq.follows.advances⟩
  | writeConfig d addr val l =>
    have there := (Bool.and_eq_true_iff.mp can).1
    obtain ⟨kept, follows⟩ := inv.pciDefaultWriteConfig there ran
    exact ⟨kept, follows.advances⟩
  | deviceReset d =>
    obtain ⟨_, ranReset, kept, quiet, -⟩ := inv.pciDeviceReset can
    rw [PciOp.act, ranReset] at ran
    cases ran
    exact ⟨kept, quiet.toFollows.advances⟩
  | busReset b =>
    obtain ⟨_, ranReset, kept, quiet, -⟩ := inv.busColdReset (of_decide_eq_true can)
    rw [PciOp.act, ranReset] at ran
    cases ran
    exact ⟨kept, quiet.toFollows.advances⟩
  | unrealize d =>
    obtain ⟨there, alone⟩ := Bool.and_eq_true_iff.mp can
    obtain ⟨kept, stays⟩ := inv.unrealize there alone ran
    refine ⟨kept, fun e thereT => ⟨(stays e thereT).1, ?_⟩⟩
    rw [(stays e thereT).2]

theorem PciMachine.reached_inv {machine : PciMachine} {allowed : PciState → PciOp → Prop}
    (reached : machine.system.ReachedBy allowed s) : MachineInv machine.topo s := by
  refine reached.invariant (MachineInv machine.topo) ?_ ?_
  · intro start initial
    cases initial
    exact machine.start_inv
  · intro before op after inv _ step
    exact (inv.next step).1

/-! ### Machines of one function -/

/-- A function without regions and capabilities, as `pci_init_wmask` leaves its command
register. -/
def plainDevice : PCIDevice where
  configSize := 0x100
  config := fun _ => 0
  wmask := fun i => if i = 4 then 0x07 else if i = 5 then 0x05 else 0
  w1cmask := fun _ => 0

theorem deviceInv_plain (bare : dev.pmCap = none ∧ dev.msiCap = none ∧
      dev.msixCap = none ∧ dev.sriovCap = 0 ∧ dev.irqState = 0)
    (locked : dev.wmask pciHeaderType ||| dev.w1cmask pciHeaderType = 0)
    (regionCount : dev.ioRegions.length = pciNumRegions)
    (consistent : ∀ r ∈ dev.ioRegions, r.Consistent) : DeviceInv dev := by
  obtain ⟨noPm, noMsi, noMsix, noSriov, low⟩ := bare
  constructor
  case locked =>
    intro i
    rw [noMsi, noSriov]
    by_cases header : i = pciHeaderType
    · rw [header, locked, UInt8.zero_and]
    · simp [fixedMask, header]
  case consistent => exact consistent
  all_goals simp [noPm, noMsi, noMsix, noSriov, low, regionCount]

theorem plainDevice_inv : DeviceInv plainDevice :=
  deviceInv_plain ⟨rfl, rfl, rfl, rfl, rfl⟩ (by decide) rfl (by decide)

def singleTopology : PciTopology where
  nbuses := 1
  slots := fun b => if b = 0 then [0] else []
  busOf := fun _ => 0
  parentDev := fun _ => none
  childBus := fun _ => []
  mapIrq := fun _ => some fun _ pin => pin
  setIrq := fun _ => true
  nirq := fun _ => 4
  allow0 := false
  busOf_of_mem := by
    intro b d member
    split at member
    · next root => exact root.symm
    · cases member
  lt_of_mem := by
    intro b d member
    split at member
    · omega
    · cases member
  mem_childBus := by
    intro b d
    simp
  parent_lt := nofun

def singleMachine (dev : PCIDevice) (inv : DeviceInv dev) (low : dev.irqState = 0)
    (noVfs : dev.vf = []) : PciMachine where
  topo := singleTopology
  start := { dev := fun _ => dev, present := fun d => d == 0 }
  device := fun _ _ => inv
  low := fun _ _ => low
  slot := by
    intro d there
    rw [beq_iff_eq.mp there]
    exact List.mem_cons_self
  bridged := nofun
  vfNodup := by
    intro d _
    rw [noVfs]
    exact List.nodup_nil
  vfs := by
    intro d vf _ member
    rw [noVfs] at member
    cases member
  counts := fun _ _ => rfl
  levels := fun _ _ => rfl

end QemuGzvm.Pci
