import QemuGzvm.Pci.MachineRuns

/-!
Contract: the count of an interrupt line is the number of pins that drive it
(`bus->irq_count` of `hw/pci/pci.c`).

Owns:
- `intxPins`, the pins that should be counted at a line;
- the causes for which a configuration write stops at an assertion, none of which is in a
  reset;
- the count along all runs, with the assertions of the resets.
-/

namespace QemuGzvm.Pci

open QemuGzvm.Library

variable {topo : PciTopology} {s t : PciState} {d addr l : Nat} {val : UInt32} {dev : PCIDevice}
  {fault : Fault}

/-- The pins routed to a line that are asserted by a realized function whose `INTX_DISABLE`
is clear. -/
def intxPins (topo : PciTopology) (s : PciState) (bus : Nat) (line : Int) : Finset (Nat × Nat) :=
  (topo.devices ×ˢ Finset.range pciNumPins).filter fun p =>
    s.present p.1 = true ∧ pciIrqState (s.dev p.1) p.2 = 1 ∧
      pciGetWord (s.dev p.1).config pciCommand &&& pciCommandIntxDisable = 0 ∧
      pciRoute topo p.1 p.2 = .ok (bus, line)

theorem intxPins_eq (topo : PciTopology) (s : PciState) (bus : Nat) (line : Int) :
    intxPins topo s bus line = routedTo topo bus line (asserting topo s) := by
  grind [intxPins, routedTo, asserting, driven, pciIrqDisabled]

/-! ### Assertions that a write can stop at -/

/-- The pin has no line, or one that its bus does not have. -/
def Unrouted (topo : PciTopology) (d pin : Nat) : Prop :=
  ∀ bus line, pciRoute topo d pin = .ok (bus, line) → ¬(0 ≤ line ∧ line < topo.nirq bus)

/-- Why a write does not return, apart from VFs that are not there. -/
def WriteRefused (topo : PciTopology) (dev : PCIDevice) (d addr l : Nat) : Prop :=
  dev.configSize < addr + l ∨ (∃ i, Span addr l i ∧ dev.wmask i &&& dev.w1cmask i ≠ 0) ∨
    ∃ pin < pciNumPins, Unrouted topo d pin

theorem writeConfigBytes_error (stopped : writeConfigBytes l addr val dev = .error fault) :
    ∃ i, Span addr l i ∧ dev.wmask i &&& dev.w1cmask i ≠ 0 := by
  induction l generalizing addr val dev with
  | zero => cases stopped
  | succ l ih =>
    grind [Span, writeConfigBytes]

theorem writeConfigLocal_error {allow0 : Bool} {pf : Option PCIDevice} (inv : DeviceInv dev)
    (stopped : writeConfigLocal allow0 pf dev addr val l = .error fault) :
    WriteRefused topo dev d addr l := by
  unfold writeConfigLocal at stopped
  dsimp only at stopped
  split at stopped
  · next outside => exact .inl outside
  · cases wrote : writeConfigBytes l addr val dev with
    | error other => exact .inr (.inl (writeConfigBytes_error wrote))
    | ok written =>
      have updated := ((writeConfigBytes_writes wrote).inv inv).pciPmUpdate addr l (pciPmState dev)
      obtain ⟨mapped, ranMapped, -⟩ := updated.2.pciUpdateMappings allow0 pf
      rw [wrote, bind_ok, ranMapped] at stopped
      split at stopped <;> cases stopped

theorem pciUpdateIrqDisabled_error {was : Bool}
    (stopped : pciUpdateIrqDisabled topo s d was = .error fault) :
    ∃ pin < pciNumPins, Unrouted topo d pin := by
  unfold pciUpdateIrqDisabled at stopped
  dsimp only at stopped
  split at stopped
  · cases stopped
  · obtain ⟨pin, member, u, -, stops⟩ := forEach_fault (fun _ => True) (fun _ _ _ _ _ _ => trivial)
      trivial stopped
    refine ⟨pin, List.mem_range.mp member, ?_⟩
    intro bus line route inside
    obtain ⟨v, returns⟩ := pciChangeIrqLevel_returns route inside u _
    rw [returns] at stops
    cases stops

/-- A write that stops at an assertion was refused: the resets of VFs that it makes stop at
none. -/
theorem MachineInv.pciDefaultWriteConfig_assertion (inv : MachineInv topo s)
    (there : s.present d = true)
    (stopped : Pci.pciDefaultWriteConfig topo s d addr val l = .error .assertion) :
    WriteRefused topo (s.dev d) d addr l := by
  unfold Pci.pciDefaultWriteConfig at stopped
  rcases bind_eq_error.mp stopped with refused | ⟨dev, wrote, stopped⟩
  · exact writeConfigLocal_error (inv.device d there) refused
  rcases bind_eq_error.mp stopped with refused | ⟨first, ranFirst, stopped⟩
  · split at refused
    · rcases bind_eq_error.mp refused with toggled | ⟨_, -, rest⟩
      · exact .inr (.inr (pciUpdateIrqDisabled_error toggled))
      · cases rest
    · cases refused
  obtain ⟨keptFirst, followsFirst, -⟩ := inv.writeCommand there wrote ranFirst
  have thereFirst : first.present d = true := followsFirst.present ▸ there
  obtain ⟨second, ranMsi, keptSecond, quietSecond, -⟩ :=
    keptFirst.msiWriteConfig thereFirst addr l
  have thereSecond : second.present d = true := quietSecond.present ▸ thereFirst
  obtain ⟨third, ranMsix, keptThird, quietThird, -⟩ :=
    keptSecond.msixWriteConfig thereSecond addr l
  rw [ranMsi, bind_ok, ranMsix, bind_ok] at stopped
  obtain ⟨_, returns, -⟩ | stops :=
    keptThird.pcieSriovConfigWrite (quietThird.present ▸ thereSecond) addr val l
  · cases stopped.symm.trans returns
  · cases stopped.symm.trans stops

/-! ### The count -/

/-- In every state of every run, the count of a line is the number of pins that drive it and
its level says whether there are any. The assertions of `pci_do_device_reset` and
`pcibus_reset_hold` hold: resets return, and a write that stops at an assertion does so for a
reason that is not in a reset. -/
theorem intx_count_exact (machine : PciMachine)
    (reached : machine.system.ReachedBy (fun _ _ => True) s) :
    (∀ bus line, s.irqCount bus line = (intxPins machine.topo s bus line).card ∧
      s.level bus line = decide (s.irqCount bus line ≠ 0)) ∧
    (∀ d, s.present d = true → ∃ t, pciDeviceReset machine.topo s d = .ok t) ∧
    (∀ b < machine.topo.nbuses, ∃ t, busColdReset machine.topo s b = .ok t) ∧
    ∀ d addr val l, s.present d = true →
      pciDefaultWriteConfig machine.topo s d addr val l = .error .assertion →
      WriteRefused machine.topo (s.dev d) d addr l := by
  have inv := PciMachine.reached_inv reached
  refine ⟨?_, ?_, ?_, ?_⟩
  · intro bus line
    rw [intxPins_eq]
    exact ⟨inv.counted.count bus line, inv.counted.level bus line⟩
  · intro d there
    obtain ⟨t, ran, -⟩ := inv.pciDeviceReset there
    exact ⟨t, ran⟩
  · intro b bound
    obtain ⟨t, ran, -⟩ := inv.busColdReset bound
    exact ⟨t, ran⟩
  · intro d addr val l there stopped
    exact inv.pciDefaultWriteConfig_assertion there stopped

/-- A bridge on a root bus with four lines, and one function behind it. -/
def bridgeTopology : PciTopology where
  nbuses := 2
  slots := fun b => if b = 0 then [0] else if b = 1 then [1] else []
  busOf := fun d => if d = 1 then 1 else 0
  parentDev := fun b => if b = 1 then some 0 else none
  childBus := fun d => if d = 0 then [1] else []
  mapIrq := fun _ => some fun d pin => (pin + d) % 4
  setIrq := fun b => b == 0
  nirq := fun b => if b = 0 then 4 else 0
  allow0 := false
  busOf_of_mem := by
    intro b d member
    split at member
    · simp_all
    · split at member <;> simp_all
  lt_of_mem := by
    intro b d member
    split at member
    · omega
    · split at member
      · omega
      · cases member
  mem_childBus := by
    intro b d
    by_cases bridge : d = 0 <;> by_cases bus : b = 1 <;> simp [bridge, bus, eq_comm]
  parent_lt := by
    intro b d parent
    split at parent
    · next bus =>
      cases parent
      subst bus
      decide
    · cases parent

def bridgeMachine : PciMachine where
  topo := bridgeTopology
  start := { dev := fun _ => plainDevice, present := fun d => decide (d < 2) }
  device := fun _ _ => plainDevice_inv
  low := fun _ _ => rfl
  slot := by
    intro d there
    have small : d < 2 := of_decide_eq_true there
    interval_cases d <;> decide
  bridged := by
    intro d bridge there
    have small : d < 2 := of_decide_eq_true there
    interval_cases d
    · exact nofun
    · intro parent
      cases parent
      rfl
  vfNodup := fun _ _ => List.nodup_nil
  vfs := fun _ _ _ none => absurd none List.not_mem_nil
  counts := fun _ _ => rfl
  levels := fun _ _ => rfl

/-- Both functions drive line 0, until the bridge disables its interrupts. -/
theorem intx_count_exact_bridge :
    ∃ s, bridgeMachine.system.ReachedBy (fun _ _ => True) s ∧
      (intxPins bridgeTopology s 0 0).card = 1 ∧ s.irqCount 0 0 = 1 ∧ s.level 0 0 = true := by
  obtain ⟨s, reached, count⟩ :
      ∃ s, bridgeMachine.system.ReachedBy (fun _ _ => True) s ∧ s.irqCount 0 0 = 1 :=
    LabelledSystem.exists_reachedBy [.irq 1 3 1, .irq 0 0 1, .writeConfig 0 4 0x400 2]
      (by decide +kernel)
  have exact := (intx_count_exact bridgeMachine reached).1 0 0
  refine ⟨s, reached, ?_, count, ?_⟩
  · rw [count] at exact
    exact Int.ofNat_inj.mp exact.1.symm
  · rw [exact.2, count]
    rfl

end QemuGzvm.Pci
