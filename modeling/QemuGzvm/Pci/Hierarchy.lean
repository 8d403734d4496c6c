import QemuGzvm.Library.Loop
import QemuGzvm.Library.Transition
import QemuGzvm.Pci.Device
import Mathlib.Data.Finset.Prod

/-!
Contract: PCI functions on a hierarchy of buses, and the calls that change their interrupt
lines (`hw/pci/pci.c`, `hw/pci/pcie_sriov.c`, the reset phases of `hw/core/resettable.c`).

Owns:
- `PciTopology`, the buses with the bridges between them and their interrupt routing;
- `PciState`, the functions and the counts of the lines at the buses that have a
  controller;
- interrupt handling, configuration writes, resets of devices and buses, and unrealize;
- `PciOp`, the steps of a run.

Buses are numbered in the order of their creation, in which a bridge is on an older bus
than the one behind it. What a device model does of its own in its reset and exit callbacks
is other steps of a run.
-/

namespace QemuGzvm.Pci

open QemuGzvm.Library

def pciNumPins : Nat := 4

/-- The buses of a machine, with the functions plugged into them. -/
structure PciTopology where
  nbuses : Nat
  /-- The functions on a bus, in the order of `devfn`. -/
  slots : Nat → List Nat
  /-- `pci_get_bus` -/
  busOf : Nat → Nat
  parentDev : Nat → Option Nat
  childBus : Nat → List Nat
  mapIrq : Nat → Option (Nat → Int → Int)
  setIrq : Nat → Bool
  nirq : Nat → Nat
  allow0 : Bool
  busOf_of_mem : ∀ b d, d ∈ slots b → busOf d = b
  lt_of_mem : ∀ b d, d ∈ slots b → b < nbuses
  mem_childBus : ∀ b d, b ∈ childBus d ↔ b < nbuses ∧ parentDev b = some d
  parent_lt : ∀ b d, parentDev b = some d → busOf d < b

def PciTopology.devices (topo : PciTopology) : Finset Nat :=
  (Finset.range topo.nbuses).biUnion fun b => (topo.slots b).toFinset

/-- The functions of a machine, and the lines at the buses with a controller. -/
structure PciState where
  dev : Nat → PCIDevice
  present : Nat → Bool
  irqCount : Nat → Int → Int := fun _ _ => 0
  /-- The last level given to `set_irq`. -/
  level : Nat → Int → Bool := fun _ _ => false

namespace PciState

def setDev (s : PciState) (d : Nat) (dev : PCIDevice) : PciState :=
  { s with dev := Function.update s.dev d dev }

def pfOf (s : PciState) (d : Nat) : Option PCIDevice := (s.dev d).pf.map s.dev

end PciState

/-! ### Interrupts -/

def pciIrqState (dev : PCIDevice) (irqNum : Nat) : Int :=
  ((dev.irqState >>> UInt8.ofNat irqNum) &&& 1).toNat

def pciSetIrqState (dev : PCIDevice) (irqNum level : Nat) : PCIDevice :=
  { dev with
    irqState := (dev.irqState &&& ~~~(1 <<< UInt8.ofNat irqNum)) |||
      (UInt8.ofNat level <<< UInt8.ofNat irqNum) }

def pciIrqDisabled (dev : PCIDevice) : Bool :=
  pciGetWord dev.config pciCommand &&& pciCommandIntxDisable != 0

def pciUpdateIrqStatus (dev : PCIDevice) : PCIDevice :=
  { dev with
    config := pciSetByte dev.config pciStatus
      (if dev.irqState ≠ 0 then dev.config pciStatus ||| pciStatusInterrupt
      else dev.config pciStatus &&& ~~~pciStatusInterrupt) }

section

variable (topo : PciTopology)

/-- The loop of `pci_change_irq_level` up to the bus with a controller: that bus and its
line. A bus with neither a controller nor a bridge has no line to go to. -/
def routeFrom : Nat → Nat → Int → Checked (Nat × Int)
  | 0, _, _ => .error .unfinished
  | fuel + 1, d, irqNum =>
    let bus := topo.busOf d
    match topo.mapIrq bus with
    | none => .error .assertion
    | some map =>
      if topo.setIrq bus then .ok (bus, map d irqNum)
      else
        match topo.parentDev bus with
        | none => .error .outOfBounds
        | some parent => routeFrom fuel parent (map d irqNum)

/-- A bus is above those behind its bridges, so that the loop passes each one once. -/
def pciRoute (d : Nat) (irqNum : Int) : Checked (Nat × Int) :=
  routeFrom topo (topo.busOf d + 1) d irqNum

def pciBusChangeIrqLevel (s : PciState) (bus : Nat) (irqNum change : Int) : Checked PciState :=
  if ¬(0 ≤ irqNum ∧ irqNum < topo.nirq bus) then .error .assertion
  else
    let count := s.irqCount bus irqNum + change
    .ok
      { s with
        irqCount := Function.update s.irqCount bus (Function.update (s.irqCount bus) irqNum count)
        level := Function.update s.level bus
          (Function.update (s.level bus) irqNum (decide (count ≠ 0))) }

def pciChangeIrqLevel (s : PciState) (d : Nat) (irqNum : Nat) (change : Int) :
    Checked PciState :=
  (pciRoute topo d irqNum).bind fun (bus, line) => pciBusChangeIrqLevel topo s bus line change

def pciIrqHandler (s : PciState) (d irqNum level : Nat) : Checked PciState :=
  if ¬(irqNum < pciNumPins ∧ level ≤ 1) then .error .assertion
  else
    let change := (level : Int) - pciIrqState (s.dev d) irqNum
    if change = 0 then .ok s
    else
      let s := s.setDev d (pciUpdateIrqStatus (pciSetIrqState (s.dev d) irqNum level))
      if pciIrqDisabled (s.dev d) then .ok s else pciChangeIrqLevel topo s d irqNum change

def pciDeviceDeassertIntx (s : PciState) (d : Nat) : Checked PciState :=
  forEach (fun s i => pciIrqHandler topo s d i 0) (List.range pciNumPins) s

def pciUpdateIrqDisabled (s : PciState) (d : Nat) (wasIrqDisabled : Bool) : Checked PciState :=
  let disabled := pciIrqDisabled (s.dev d)
  if disabled = wasIrqDisabled then .ok s
  else
    forEach
      (fun s i =>
        let state := pciIrqState (s.dev d) i
        pciChangeIrqLevel topo s d i (if disabled then -state else state))
      (List.range pciNumPins) s

/-! ### MSI and MSI-X -/

def msiWriteConfig (s : PciState) (d addr l : Nat) : Checked PciState :=
  match (s.dev d).msiCap with
  | none => .ok s
  | some cap =>
    let flags := pciGetWord (s.dev d).config (cap + pciMsiFlags)
    if !rangesOverlap addr l cap (msiCapSizeof flags) then .ok s
    else if flags &&& pciMsiFlagsEnable = 0 then .ok s
    else
      (pciDeviceDeassertIntx topo s d).bind fun s =>
        .ok (s.setDev d (msiWriteLocal (s.dev d) cap flags))

def msixWriteConfig (s : PciState) (d addr l : Nat) : Checked PciState :=
  match (s.dev d).msixCap with
  | none => .ok s
  | some cap =>
    if !rangeCoversByte addr l (cap + msixControlOffset) then .ok s
    else if (s.dev d).config (cap + msixControlOffset) &&& msixEnableMask = 0 then .ok s
    else pciDeviceDeassertIntx topo s d

/-! ### SR-IOV -/

def pciSriovCtrl : Nat := 0x08

def pciSriovCtrlVfe : UInt16 := 0x0001

def pciSriovCtrlMseAri : UInt16 := 0x0018

def pciSriovTotalVf : Nat := 0x0e

def pciSriovNumVf : Nat := 0x10

def pciSriovSysPgsize : Nat := 0x20

def pciExtCapSriovSizeof : Nat := 0x40

/-- `deviceReset` is `pci_device_reset`. -/
def pciSetEnabled (deviceReset : PciState → Nat → Checked PciState) (s : PciState) (d : Nat)
    (state : Bool) : Checked PciState :=
  if (s.dev d).enabled = state then .ok s
  else
    (pciUpdateMappings topo.allow0 (s.pfOf d) { s.dev d with enabled := state }).bind fun dev =>
      let s := s.setDev d (updateBusMaster dev)
      if s.present d then deviceReset s d else .ok s

/-- The loop over the first `count` VFs of a function. -/
def setVfs (deviceReset : PciState → Nat → Checked PciState) (d : Nat) (state : Bool)
    (count : Nat) (s : PciState) : Checked PciState :=
  forEach
    (fun s i => (readAt (s.dev d).vf i).bind fun vf => pciSetEnabled topo deviceReset s vf state)
    (List.range count) s

def setSriovWmask (s : PciState) (d offset : Nat) (val : UInt16) : PciState :=
  let dev := s.dev d
  s.setDev d { dev with wmask := pciSetWord dev.wmask (dev.sriovCap + offset) val }

def registerVfs (deviceReset : PciState → Nat → Checked PciState) (s : PciState) (d : Nat) :
    Checked PciState :=
  let numVfs := pciGetWord (s.dev d).config ((s.dev d).sriovCap + pciSriovNumVf)
  (setVfs topo deviceReset d true numVfs.toNat s).bind fun s =>
    .ok (setSriovWmask s d pciSriovNumVf 0)

def unregisterVfs (deviceReset : PciState → Nat → Checked PciState) (s : PciState) (d : Nat) :
    Checked PciState :=
  let totalVfs := pciGetWord (s.dev d).config ((s.dev d).sriovCap + pciSriovTotalVf)
  (setVfs topo deviceReset d false totalVfs.toNat s).bind fun s =>
    .ok (setSriovWmask s d pciSriovNumVf 0xffff)

def pcieSriovConfigWrite (deviceReset : PciState → Nat → Checked PciState) (s : PciState)
    (d addr : Nat) (val : UInt32) (l : Nat) : Checked PciState :=
  let dev := s.dev d
  if dev.sriovCap = 0 ∨ addr < dev.sriovCap then .ok s
  else
    let off := addr - dev.sriovCap
    if pciExtCapSriovSizeof ≤ off then .ok s
    else if rangeCoversByte off l pciSriovCtrl then
      if val.toUInt16 &&& pciSriovCtrlVfe ≠ 0 then registerVfs topo deviceReset s d
      else unregisterVfs topo deviceReset s d
    else if rangeCoversByte off l pciSriovNumVf then
      let numVfs := pciGetWord dev.config (dev.sriovCap + pciSriovNumVf)
      let totalVfs := pciGetWord dev.config (dev.sriovCap + pciSriovTotalVf)
      .ok (setSriovWmask s d pciSriovCtrl
        (if numVfs ≤ totalVfs then pciSriovCtrlMseAri ||| pciSriovCtrlVfe
        else pciSriovCtrlMseAri))
    else .ok s

/-- The loop over the BARs of the VFs, from number `reg` on. -/
def resetVfBars (sriovCap : Nat) : Nat → List UInt8 → Bytes → Bytes
  | _, [], config => config
  | reg, type :: rest, config =>
    resetVfBars sriovCap (reg + 1) rest
      (pciSetQuad config (sriovCap + pciSriovBar + reg * 4) type.toUInt64)

/-- The registers of the SR-IOV capability after the VFs are unregistered. -/
def resetSriovRegisters (dev : PCIDevice) : PCIDevice :=
  let config := pciSetWord dev.config (dev.sriovCap + pciSriovNumVf) 0
  let config := pciSetWord config (dev.sriovCap + pciSriovSysPgsize) 1
  { dev with
    config := resetVfBars dev.sriovCap 0 dev.vfBarType config
    wmask := pciSetWord dev.wmask (dev.sriovCap + pciSriovCtrl)
      (pciSriovCtrlVfe ||| pciSriovCtrlMseAri) }

def pcieSriovPfReset (deviceReset : PciState → Nat → Checked PciState) (s : PciState) (d : Nat) :
    Checked PciState :=
  let dev := s.dev d
  if dev.sriovCap = 0 then .ok s
  else
    let config := pciSetWord dev.config (dev.sriovCap + pciSriovCtrl) 0
    (unregisterVfs topo deviceReset (s.setDev d { dev with config }) d).bind fun s =>
      .ok (s.setDev d (resetSriovRegisters (s.dev d)))

/-! ### Resets -/

def pciDoDeviceReset (deviceReset : PciState → Nat → Checked PciState) (s : PciState) (d : Nat) :
    Checked PciState :=
  (pciDeviceDeassertIntx topo s d).bind fun s =>
    if (s.dev d).irqState ≠ 0 then .error .assertion
    else
      (resetLocal topo.allow0 (s.pfOf d) (s.dev d)).bind fun dev =>
        pcieSriovPfReset topo deviceReset (s.setDev d dev) d

inductive ResetCall where
  /-- `pci_device_reset` -/
  | device (d : Nat)
  /-- `device_cold_reset`: the phases of the buses behind the function. -/
  | cold (d : Nat)
  /-- `bus_cold_reset`: the phases of a bus, those of its functions first. -/
  | bus (b : Nat)

def onBus (s : PciState) (b : Nat) : List Nat := (topo.slots b).filter s.present

def irqCountsClear (s : PciState) (b : Nat) : Bool :=
  (List.range (topo.nirq b)).all fun i => s.irqCount b i == 0

/-- One call of a reset, at most `fuel` calls deep. -/
def reset : Nat → ResetCall → PciState → Checked PciState
  | 0, _, _ => .error .unfinished
  | fuel + 1, .device d, s =>
    (reset fuel (.cold d) s).bind fun s =>
      pciDoDeviceReset topo (fun s vf => reset fuel (.device vf) s) s d
  | fuel + 1, .cold d, s => forEach (fun s b => reset fuel (.bus b) s) (topo.childBus d) s
  | fuel + 1, .bus b, s =>
    (forEach (fun s d => reset fuel (.cold d) s) (onBus topo s b) s).bind fun s =>
      (forEach (fun s d => pciDoDeviceReset topo (fun s vf => reset fuel (.device vf) s) s d)
        (onBus topo s b) s).bind fun s =>
          -- The assertion of `pcibus_reset_hold`.
          if !irqCountsClear topo s b then .error .assertion else .ok s

/-- Enough for the deepest hierarchy: a bus takes one call for the functions on it, one for
a function and one for its VFs. -/
def resetFuel : Nat := 3 * topo.nbuses

def pciDeviceReset (s : PciState) (d : Nat) : Checked PciState :=
  reset topo (resetFuel topo) (.device d) s

def busColdReset (s : PciState) (b : Nat) : Checked PciState :=
  reset topo (resetFuel topo) (.bus b) s

/-! ### Configuration writes and unrealize -/

def pciDefaultWriteConfig (s : PciState) (d addr : Nat) (val : UInt32) (l : Nat) :
    Checked PciState :=
  let wasIrqDisabled := pciIrqDisabled (s.dev d)
  (writeConfigLocal topo.allow0 (s.pfOf d) (s.dev d) addr val l).bind fun dev =>
    (if rangesOverlap addr l pciCommand 2 then
      (pciUpdateIrqDisabled topo (s.setDev d dev) d wasIrqDisabled).bind fun s =>
        .ok (s.setDev d (updateBusMaster (s.dev d)))
    else .ok (s.setDev d dev)).bind fun s =>
      (msiWriteConfig topo s d addr l).bind fun s =>
        (msixWriteConfig topo s d addr l).bind fun s =>
          pcieSriovConfigWrite topo (pciDeviceReset topo) s d addr val l

def unregisterIoRegions : List PCIIORegion → Checked (List PCIIORegion)
  | [] => .ok []
  | r :: rest =>
    (if r.size = 0 ∨ r.addr = pciBarUnmapped then .ok r else memoryRegionDelSubregion r).bind
      fun r => (unregisterIoRegions rest).bind fun rest => .ok (r :: rest)

def pciQdevUnrealize (s : PciState) (d : Nat) : Checked PciState :=
  (unregisterIoRegions (s.dev d).ioRegions).bind fun ioRegions =>
    (pciDeviceDeassertIntx topo (s.setDev d { s.dev d with ioRegions }) d).bind fun s =>
      .ok { s with present := Function.update s.present d false }

/-! ### Runs -/

inductive PciOp where
  | irq (d irqNum level : Nat)
  | writeConfig (d addr : Nat) (val : UInt32) (l : Nat)
  | deviceReset (d : Nat)
  | busReset (b : Nat)
  | unrealize (d : Nat)

/-- The functions behind a bridge are unrealized before it, and VFs with the physical
function. -/
def canUnrealize (s : PciState) (d : Nat) : Bool :=
  (s.dev d).pf.isNone &&
    (d :: (s.dev d).vf).all fun e => (topo.childBus e).all fun b => (onBus topo s b).isEmpty

/-- `pcie_sriov_pf_exit`, which the exit callback of a physical function calls. -/
def unrealizeAll (s : PciState) (ds : List Nat) : Checked PciState :=
  forEach (pciQdevUnrealize topo) ds s

/-- What a step calls, on a function that is realized. -/
def PciOp.act (s : PciState) : PciOp → Checked PciState
  | .irq d irqNum level => pciIrqHandler topo s d irqNum level
  | .writeConfig d addr val l => pciDefaultWriteConfig topo s d addr val l
  | .deviceReset d => pciDeviceReset topo s d
  | .busReset b => busColdReset topo s b
  | .unrealize d => unrealizeAll topo s ((s.dev d).vf.filter s.present ++ [d])

def PciOp.allowed (s : PciState) : PciOp → Bool
  | .irq d _ _ => s.present d
  | .writeConfig d _ _ l => s.present d && decide (1 ≤ l ∧ l ≤ 4)
  | .deviceReset d => s.present d
  | .busReset b => decide (b < topo.nbuses)
  | .unrealize d => s.present d && canUnrealize topo s d

def PciOp.next (s : PciState) (op : PciOp) : Option PciState :=
  if op.allowed topo s then (op.act topo s).toOption else none

end

end QemuGzvm.Pci
