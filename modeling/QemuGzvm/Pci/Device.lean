import QemuGzvm.Library.CheckedArray
import QemuGzvm.Pci.ConfigSpace

/-!
Contract: what the functions of `hw/pci/pci.c`, `hw/pci/msi.c` and `hw/pci/msix.c` do to one
PCI function, apart from its interrupt lines.

Owns:
- `PCIDevice`, with its configuration space, write masks, regions and capabilities;
- the bytes of a configuration write, the power state and its transitions;
- the address of a BAR and the mappings that follow it;
- the part of a reset that concerns the function alone.

Left out are the messages that MSI and MSI-X send, the tables of MSI-X and the configuration
masks used for migration.
-/

namespace QemuGzvm.Pci

open QemuGzvm.Library

/-! ### Regions -/

def pciBarUnmapped : UInt64 := ~~~0

def pciRomSlot : Nat := 6

def pciNumRegions : Nat := 7

structure PCIIORegion where
  addr : UInt64 := pciBarUnmapped
  size : UInt64 := 0
  type : UInt8 := 0
  /-- Where `memory` is a subregion of `address_space`, if it is one. -/
  mappedAt : Option UInt64 := none
deriving DecidableEq, Repr

/-- `memory_region_del_subregion`, which asserts that the region is one. -/
def memoryRegionDelSubregion (r : PCIIORegion) : Checked PCIIORegion :=
  if r.mappedAt = none then .error .assertion else .ok { r with mappedAt := none }

/-- `memory_region_add_subregion_overlap`, which asserts that the region is none yet. -/
def memoryRegionAddSubregionOverlap (r : PCIIORegion) (addr : UInt64) : Checked PCIIORegion :=
  if r.mappedAt ≠ none then .error .assertion else .ok { r with mappedAt := some addr }

/-! ### The device -/

structure PCIDevice where
  configSize : Nat
  config : Bytes
  wmask : Bytes
  w1cmask : Bytes
  devfn : Nat := 0
  enabled : Bool := true
  /-- The level recorded for each pin. -/
  irqState : UInt8 := 0
  ioRegions : List PCIIORegion := List.replicate pciNumRegions {}
  /-- Whether `bus_master_enable_region` is enabled. -/
  busMasterEnabled : Bool := false
  /-- `pm_cap`, if the capability is present; likewise below. -/
  pmCap : Option Nat := none
  msiCap : Option Nat := none
  msixCap : Option Nat := none
  /-- `exp.sriov_cap` -/
  sriovCap : Nat := 0
  /-- `exp.sriov_pf.vf` -/
  vf : List Nat := []
  /-- `exp.sriov_pf.vf_bar_type` -/
  vfBarType : List UInt8 := List.replicate pciNumRegions 0
  /-- `exp.sriov_vf.pf` -/
  pf : Option Nat := none

/-- Where the register of a region is, of a function that is not a VF. -/
def pciBar (d : PCIDevice) (reg : Nat) : Nat :=
  if reg ≠ pciRomSlot then pciBaseAddress0 + reg * 4
  else if d.config pciHeaderType &&& ~~~pciHeaderTypeMultiFunction = pciHeaderTypeBridge then
    pciRomAddress1
  else pciRomAddress

/-! ### Power state -/

def pciPmState (d : PCIDevice) : UInt16 :=
  match d.pmCap with
  | none => 0
  | some cap => pciGetWord d.config (cap + pciPmCtrl) &&& pciPmCtrlStateMask

/-- A transition that the capabilities or the present state do not allow. -/
def pmBadTransition (pmc old new : UInt16) : Bool :=
  (pmc &&& pciPmCapD1 == 0 && new == 1) || (pmc &&& pciPmCapD2 == 0 && new == 2) ||
    (old != 0 && new != 0 && decide (new < old))

/-- Returns the power state after a write and takes back a transition that is not
allowed. -/
def pciPmUpdate (d : PCIDevice) (addr l : Nat) (old : UInt16) : UInt16 × PCIDevice :=
  match d.pmCap with
  | none => (old, d)
  | some cap =>
    if !rangeCoversByte addr l (cap + pciPmCtrl) then (old, d)
    else
      let new := pciPmState d
      if new = old then (old, d)
      else if pmBadTransition (pciGetWord d.config (cap + pciPmPmc)) old new then
        let config := pciWordTestAndClearMask d.config (cap + pciPmCtrl) pciPmCtrlStateMask
        (old, { d with config := pciWordTestAndSetMask config (cap + pciPmCtrl) old })
      else (new, d)

/-! ### Mappings -/

def pciSriovVfOffset : Nat := 0x14

def pciSriovVfStride : Nat := 0x16

def pciSriovBar : Nat := 0x24

def getBar (config : Bytes) (bar : Nat) (type : UInt8) : UInt64 :=
  if type &&& pciBaseAddressMemType64 ≠ 0 then pciGetQuad config bar
  else (pciGetLong config bar).toUInt64

/-- The address in the registers of a region. A VF, whose physical function is `pf`, has
its share of the range that the registers of `pf` give. -/
def pciConfigGetBarAddr (pf : Option PCIDevice) (d : PCIDevice) (reg : Nat) (type : UInt8)
    (size : UInt64) : UInt64 :=
  let newAddr :=
    match pf with
    | none => getBar d.config (pciBar d reg) type
    | some pf =>
      let vfOffset := (pciGetWord pf.config (pf.sriovCap + pciSriovVfOffset)).toNat
      let vfStride := (pciGetWord pf.config (pf.sriovCap + pciSriovVfStride)).toNat
      let vfNum : Int := ((d.devfn : Int) - (pf.devfn + vfOffset)).tdiv vfStride
      getBar pf.config (pf.sriovCap + pciSriovBar + reg * 4) type +
        UInt64.ofNat (vfNum % 2 ^ 32).toNat * size
  if reg ≠ pciRomSlot then newAddr &&& ~~~(size - 1) else newAddr

def uint32Max : UInt64 := 0xffffffff

def hwaddrMax : UInt64 := ~~~0

/-- `allow0` is `pci_allow_0_address` of the machine. -/
def pciBarAddress (allow0 : Bool) (pf : Option PCIDevice) (d : PCIDevice) (reg : Nat)
    (type : UInt8) (size : UInt64) : UInt64 :=
  let cmd := pciGetWord d.config pciCommand
  let newAddr := pciConfigGetBarAddr pf d reg type size
  if type &&& pciBaseAddressSpaceIo ≠ 0 then
    if cmd &&& pciCommandIo = 0 then pciBarUnmapped
    else
      let lastAddr := newAddr + size - 1
      if lastAddr ≤ newAddr ∨ uint32Max ≤ lastAddr ∨ (!allow0 ∧ newAddr = 0) then pciBarUnmapped
      else newAddr
  else if cmd &&& pciCommandMemory = 0 then pciBarUnmapped
  else if reg = pciRomSlot ∧ newAddr &&& pciRomAddressEnable = 0 then pciBarUnmapped
  else
    let newAddr := newAddr &&& ~~~(size - 1)
    let lastAddr := newAddr + size - 1
    if lastAddr ≤ newAddr ∨ lastAddr = pciBarUnmapped ∨ (!allow0 ∧ newAddr = 0) then
      pciBarUnmapped
    else if type &&& pciBaseAddressMemType64 = 0 ∧ uint32Max ≤ lastAddr then pciBarUnmapped
    else if hwaddrMax ≤ lastAddr then pciBarUnmapped
    else newAddr

/-- The address that `pci_update_mappings` gives a region. -/
def regionAddress (allow0 : Bool) (pf : Option PCIDevice) (d : PCIDevice) (reg : Nat)
    (r : PCIIORegion) : UInt64 :=
  if !d.enabled || pciPmState d != 0 then pciBarUnmapped
  else pciBarAddress allow0 pf d reg r.type r.size

def updateRegion (newAddr : UInt64) (r : PCIIORegion) : Checked PCIIORegion :=
  if newAddr = r.addr then .ok r
  else
    (if r.addr ≠ pciBarUnmapped then memoryRegionDelSubregion r else .ok r).bind fun r =>
      if newAddr ≠ pciBarUnmapped then
        memoryRegionAddSubregionOverlap { r with addr := newAddr } newAddr
      else .ok { r with addr := newAddr }

def updateRegions (target : Nat → PCIIORegion → UInt64) :
    Nat → List PCIIORegion → Checked (List PCIIORegion)
  | _, [] => .ok []
  | reg, r :: rest =>
    (if r.size = 0 then .ok r else updateRegion (target reg r) r).bind fun r =>
      (updateRegions target (reg + 1) rest).bind fun rest => .ok (r :: rest)

def pciUpdateMappings (allow0 : Bool) (pf : Option PCIDevice) (d : PCIDevice) :
    Checked PCIDevice :=
  (updateRegions (regionAddress allow0 pf d) 0 d.ioRegions).bind fun ioRegions =>
    .ok { d with ioRegions }

/-- `memory_region_set_enabled` of `bus_master_enable_region`, as a write and
`pci_set_enabled` do it. -/
def updateBusMaster (d : PCIDevice) : PCIDevice :=
  { d with
    busMasterEnabled := pciGetWord d.config pciCommand &&& pciCommandMaster != 0 && d.enabled }

/-! ### Writes -/

def writtenByte (old wmask w1cmask val : UInt8) : UInt8 :=
  ((old &&& ~~~wmask) ||| (val &&& wmask)) &&& ~~~(val &&& w1cmask)

/-- The loop over the bytes of a write, `left` of them from `addr` on. -/
def writeConfigBytes : Nat → Nat → UInt32 → PCIDevice → Checked PCIDevice
  | 0, _, _, d => .ok d
  | left + 1, addr, val, d =>
    if d.wmask addr &&& d.w1cmask addr ≠ 0 then .error .assertion
    else
      let new := writtenByte (d.config addr) (d.wmask addr) (d.w1cmask addr) val.toUInt8
      writeConfigBytes left (addr + 1) (val >>> 8)
        { d with config := pciSetByte d.config addr new }

def mappingTrigger (addr l : Nat) (oldPmState newPmState : UInt16) : Bool :=
  rangesOverlap addr l pciBaseAddress0 24 || rangesOverlap addr l pciRomAddress 4 ||
    rangesOverlap addr l pciRomAddress1 4 || rangeCoversByte addr l pciCommand ||
    ((newPmState != 0) != (oldPmState != 0))

/-- The part of `pci_default_write_config` before the interrupt lines: the bytes, the
power state and the mappings. -/
def writeConfigLocal (allow0 : Bool) (pf : Option PCIDevice) (d : PCIDevice) (addr : Nat)
    (val : UInt32) (l : Nat) : Checked PCIDevice :=
  let oldPmState := pciPmState d
  if d.configSize < addr + l then .error .assertion
  else
    (writeConfigBytes l addr val d).bind fun d =>
      let (newPmState, d) := pciPmUpdate d addr l oldPmState
      if mappingTrigger addr l oldPmState newPmState then pciUpdateMappings allow0 pf d else .ok d

/-! ### MSI and MSI-X -/

def pciMsiFlags : Nat := 0x02

def pciMsiFlagsEnable : UInt16 := 0x0001

def pciMsiFlagsQmask : UInt16 := 0x000e

def pciMsiFlagsQsize : UInt16 := 0x0070

def pciMsiFlags64bit : UInt16 := 0x0080

def pciMsiFlagsMaskbit : UInt16 := 0x0100

def msi64bit (flags : UInt16) : Bool := flags &&& pciMsiFlags64bit != 0

def msiPerVectorMask (flags : UInt16) : Bool := flags &&& pciMsiFlagsMaskbit != 0

def msiCapSizeof (flags : UInt16) : Nat :=
  match msiPerVectorMask flags, msi64bit flags with
  | true, true => 0x18
  | false, true => 0x0e
  | true, false => 0x14
  | false, false => 0x0a

def msiDataOff (cap : Nat) (flags : UInt16) : Nat := cap + if msi64bit flags then 0x0c else 0x08

def msiMaskOff (cap : Nat) (flags : UInt16) : Nat := cap + if msi64bit flags then 0x10 else 0x0c

def msiPendingOff (cap : Nat) (flags : UInt16) : Nat :=
  cap + if msi64bit flags then 0x14 else 0x10

def msiNrVectors (flags : UInt16) : Nat := 2 ^ ((flags &&& pciMsiFlagsQsize) >>> 4).toNat

/-- The flags with no more vectors than the device has. -/
def msiClampVectors (flags : UInt16) : UInt16 :=
  let logNumVecs := (flags &&& pciMsiFlagsQsize) >>> 4
  let logMaxVecs := (flags &&& pciMsiFlagsQmask) >>> 1
  if logMaxVecs < logNumVecs then (flags &&& ~~~pciMsiFlagsQsize) ||| (logMaxVecs <<< 4)
  else flags

/-- The loop that sends the vectors that are pending and not masked, and clears them. -/
def msiSendPending (config : Bytes) (cap : Nat) (flags : UInt16) (pending : UInt32) : Bytes :=
  (List.range (msiNrVectors flags)).foldl
    (fun config vector =>
      let bit : UInt32 := 1 <<< UInt32.ofNat vector
      if pciGetLong config (msiMaskOff cap flags) &&& bit ≠ 0 ∨ pending &&& bit = 0 then config
      else pciLongTestAndClearMask config (msiPendingOff cap flags) bit) config

/-- What `msi_write_config` does to the configuration space of a device whose MSI is
enabled. -/
def msiWriteLocal (d : PCIDevice) (cap : Nat) (flags : UInt16) : PCIDevice :=
  let clamped := msiClampVectors flags
  let config :=
    if clamped = flags then d.config else pciSetWord d.config (cap + pciMsiFlags) clamped
  if !msiPerVectorMask flags then { d with config }
  else
    let pending := pciGetLong config (msiPendingOff cap flags) &&&
      ((0xffffffff : UInt32) >>> UInt32.ofNat (32 - msiNrVectors clamped))
    let config := pciSetLong config (msiPendingOff cap flags) pending
    { d with config := msiSendPending config cap clamped pending }

def msiReset (d : PCIDevice) : PCIDevice :=
  match d.msiCap with
  | none => d
  | some cap =>
    let flags := pciGetWord d.config (cap + pciMsiFlags) &&&
      ~~~(pciMsiFlagsQsize ||| pciMsiFlagsEnable)
    let config := pciSetWord d.config (cap + pciMsiFlags) flags
    let config := pciSetLong config (cap + 4) 0
    let config := if msi64bit flags then pciSetLong config (cap + 8) 0 else config
    let config := pciSetWord config (msiDataOff cap flags) 0
    let config :=
      if msiPerVectorMask flags then
        pciSetLong (pciSetLong config (msiMaskOff cap flags) 0) (msiPendingOff cap flags) 0
      else config
    { d with config }

def msixControlOffset : Nat := 3

def msixEnableMask : UInt8 := 0x80

def msixReset (d : PCIDevice) : PCIDevice :=
  match d.msixCap with
  | none => d
  | some cap =>
    let control := cap + msixControlOffset
    { d with config := pciSetByte d.config control (d.config control &&& ~~~d.wmask control) }

/-! ### Reset -/

def resetRegions (d : PCIDevice) : Nat → List PCIIORegion → Bytes → Bytes
  | _, [], config => config
  | reg, r :: rest, config =>
    let config :=
      if r.size = 0 then config
      else if r.type &&& pciBaseAddressSpaceIo = 0 ∧ r.type &&& pciBaseAddressMemType64 ≠ 0 then
        pciSetQuad config (pciBar d reg) r.type.toUInt64
      else pciSetLong config (pciBar d reg) r.type.toUInt32
    resetRegions d (reg + 1) rest config

def pciResetRegions (d : PCIDevice) : PCIDevice :=
  if d.pf.isSome then d else { d with config := resetRegions d 0 d.ioRegions d.config }

/-- The bits that a reset clears in the word at an offset. -/
def resetMask (d : PCIDevice) (offset : Nat) : UInt16 :=
  pciGetWord d.wmask offset ||| pciGetWord d.w1cmask offset

/-- What a reset leaves of the configuration space before the regions. -/
def resetConfig (d : PCIDevice) : PCIDevice :=
  let config := pciWordTestAndClearMask d.config pciCommand (resetMask d pciCommand)
  let config := pciWordTestAndClearMask config pciStatus (resetMask d pciStatus)
  let config :=
    pciByteTestAndClearMask config pciInterruptLine (resetMask d pciInterruptLine).toUInt8
  let config := pciSetByte config pciCacheLineSize 0
  match d.pmCap with
  | none => { d with config }
  | some cap =>
    { d with
      config := pciWordTestAndClearMask config (cap + pciPmCtrl) pciPmCtrlStateMask }

/-- The part of `pci_do_device_reset` between the interrupt lines and SR-IOV. -/
def resetLocal (allow0 : Bool) (pf : Option PCIDevice) (d : PCIDevice) : Checked PCIDevice :=
  (pciUpdateMappings allow0 pf (pciResetRegions (resetConfig d))).bind fun d =>
    .ok (msixReset (msiReset d))

end QemuGzvm.Pci
