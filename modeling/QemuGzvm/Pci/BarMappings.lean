import QemuGzvm.Pci.MachineRuns

/-!
Contract: the regions of a PCI function are mapped where its configuration space says
(`pci_update_mappings` and its callers in `hw/pci/pci.c`).

Owns:
- `SameAddressInputs`, the bytes and fields that the address of a region depends on;
- `MappingsFollow`, that every region is where they say;
- that every move of a function that is not a VF keeps it, and so do all runs.

A write that changes one of the inputs must fire one of the triggers of
`pci_default_write_config`. The triggers cover the registers of a region except the upper
half of a 64-bit one in the last slots, where there is no register for it.
-/

namespace QemuGzvm.Pci

open QemuGzvm.Library

/-! ### What the address of a region depends on -/

def BarBytes (i : Nat) : Prop :=
  Span pciBaseAddress0 24 i ∨ Span pciRomAddress 4 i ∨ Span pciRomAddress1 4 i

def pciCommandSpaces : UInt16 := pciCommandIo ||| pciCommandMemory

structure SameAddressInputs (d e : PCIDevice) : Prop where
  enabled : e.enabled = d.enabled
  power : (pciPmState e != 0) = (pciPmState d != 0)
  command : pciGetWord e.config pciCommand &&& pciCommandSpaces =
    pciGetWord d.config pciCommand &&& pciCommandSpaces
  header : e.config pciHeaderType = d.config pciHeaderType
  bars : ∀ i, BarBytes i → e.config i = d.config i

/-- The regions with no register for the upper half of an address are not 64-bit ones. -/
def UpperHalvesFit (d : PCIDevice) : Prop :=
  ∀ (reg : Nat) (r : PCIIORegion), d.ioRegions[reg]? = some r → r.size ≠ 0 → 5 ≤ reg →
    r.type &&& pciBaseAddressMemType64 = 0

/-- Every registered region is where the configuration space says. -/
def MappingsFollow (allow0 : Bool) (d : PCIDevice) : Prop :=
  ∀ (reg : Nat) (r : PCIIORegion), d.ioRegions[reg]? = some r → r.size ≠ 0 →
    r.addr = regionAddress allow0 none d reg r

section

variable {allow0 : Bool} {d e : PCIDevice} {reg addr l pm : Nat} {written : PCIDevice}

theorem getBar_congr (same : SameAddressInputs d e) (small : reg < pciNumRegions) {type : UInt8}
    (fits : 5 ≤ reg → type &&& pciBaseAddressMemType64 = 0) :
    getBar e.config (pciBar d reg) type = getBar d.config (pciBar d reg) type := by
  have bound : reg < 7 := small
  have place : reg ≤ 5 ∧ pciBar d reg = 0x10 + reg * 4 ∨
      reg = 6 ∧ (pciBar d reg = 0x30 ∨ pciBar d reg = 0x38) := by
    unfold pciBar
    split
    · next notRom =>
      have other : reg ≠ 6 := notRom
      exact .inl ⟨by omega, rfl⟩
    · next rom =>
      have same : reg = 6 := not_not.mp rom
      split
      · exact .inr ⟨same, .inr rfl⟩
      · exact .inr ⟨same, .inl rfl⟩
  have inside : ∀ i, BarBytes i ↔ 0x10 ≤ i ∧ i < 0x28 ∨ 0x30 ≤ i ∧ i < 0x34 ∨
      0x38 ≤ i ∧ i < 0x3c := fun _ => Iff.rfl
  unfold getBar
  split
  · next wide =>
    have low : reg < 5 := by
      by_contra high
      exact wide (fits (by omega))
    apply congrArg UInt64.ofNat (Bytes.load_congr _)
    intro i above below
    apply same.bars
    rw [inside]
    omega
  · have long : pciGetLong e.config (pciBar d reg) = pciGetLong d.config (pciBar d reg) := by
      apply congrArg UInt32.ofNat (Bytes.load_congr _)
      intro i above below
      apply same.bars
      rw [inside]
      omega
    rw [long]

theorem regionAddress_congr (same : SameAddressInputs d e) (small : reg < pciNumRegions)
    {r : PCIIORegion} (fits : 5 ≤ reg → r.type &&& pciBaseAddressMemType64 = 0) :
    regionAddress allow0 none e reg r = regionAddress allow0 none d reg r := by
  have addr : pciConfigGetBarAddr none e reg r.type r.size =
      pciConfigGetBarAddr none d reg r.type r.size := by
    have bar : pciBar e reg = pciBar d reg := by
      rw [pciBar, same.header, pciBar]
    unfold pciConfigGetBarAddr
    rw [bar, getBar_congr same small fits]
  have masks : ∀ space, pciCommandSpaces &&& space = space →
      pciGetWord e.config pciCommand &&& space = pciGetWord d.config pciCommand &&& space := by
    intro space inside
    rw [← inside, ← UInt16.and_assoc, ← UInt16.and_assoc, same.command]
  unfold regionAddress pciBarAddress
  dsimp only
  rw [same.enabled, same.power, addr, masks pciCommandIo (by decide),
    masks pciCommandMemory (by decide)]

theorem MappingsFollow.congr (follow : MappingsFollow allow0 d) (inv : DeviceInv d)
    (fits : UpperHalvesFit d) (same : SameAddressInputs d e) (regions : e.ioRegions = d.ioRegions) :
    MappingsFollow allow0 e := by
  intro reg r there registered
  rw [regions] at there
  have small : reg < pciNumRegions := by
    rw [← inv.regionCount]
    exact (List.getElem?_eq_some_iff.mp there).1
  rw [follow reg r there registered]
  exact (regionAddress_congr same small (fits reg r there registered)).symm

theorem mappingsFollow_placed (d : PCIDevice) :
    MappingsFollow allow0 { d with ioRegions := placedRegions allow0 none d } := by
  intro reg r there registered
  unfold placedRegions at there
  rw [List.getElem?_mapIdx] at there
  obtain ⟨before, -, same⟩ := Option.map_eq_some_iff.mp there
  subst same
  by_cases empty : before.size = 0
  · rw [if_pos empty] at registered
    exact absurd empty registered
  · rw [if_neg empty]
    rfl

/-! ### The power state -/

/-- The power state is in the first byte of its register. -/
theorem pciPmState_congr (caps : e.pmCap = d.pmCap)
    (same : ∀ cap, d.pmCap = some cap →
      e.config (cap + pciPmCtrl) = d.config (cap + pciPmCtrl)) : pciPmState e = pciPmState d := by
  unfold pciPmState
  rw [caps]
  split
  · rfl
  · next cap present =>
    have bits : pciGetWord e.config (cap + pciPmCtrl) &&&
          ((3 : UInt8).toUInt16 ||| (0 : UInt8).toUInt16 <<< 8) =
        pciGetWord d.config (cap + pciPmCtrl) &&&
          ((3 : UInt8).toUInt16 ||| (0 : UInt8).toUInt16 <<< 8) :=
      pciGetWord_mask_iff.mpr
        ⟨by rw [same cap present], by rw [UInt8.and_zero, UInt8.and_zero]⟩
    exact bits

theorem restoredState (word state mask : UInt16) :
    ((word &&& ~~~mask) ||| (state &&& mask)) &&& mask = state &&& mask := by
  apply UInt16.toBitVec_inj.mp
  ext bit inside
  simp
  grind

theorem pciPmUpdate_state (writes : WritesBytes addr l d written) :
    pciPmState (Pci.pciPmUpdate written addr l (pciPmState d)).2 =
      (Pci.pciPmUpdate written addr l (pciPmState d)).1 := by
  have caps := writes.only.field PCIDevice.pmCap fun _ _ => rfl
  have untouched : (∀ cap, d.pmCap = some cap → rangeCoversByte addr l (cap + pciPmCtrl) = false) →
      pciPmState written = pciPmState d := by
    intro elsewhere
    apply pciPmState_congr caps
    intro cap present
    have apart := rangeCoversByte_eq_false.mp (elsewhere cap present)
    exact writes.only.bytes _ (not_span.mpr apart)
  unfold Pci.pciPmUpdate
  split
  · next none =>
    exact untouched fun cap present => by rw [← caps, none] at present; cases present
  · next cap present =>
    rw [caps] at present
    dsimp only
    split_ifs with elsewhere same bad
    · grind
    · exact same
    · -- The bits of the state are cleared and the old ones set.
      unfold pciPmState
      rw [caps, present]
      dsimp only
      rw [pciWordTestAndSetMask, pciGetWord_set, pciWordTestAndClearMask, pciGetWord_set,
        restoredState]
    · rfl

/-! ### The moves -/

theorem SameAddressInputs.of_leavesHeader (leaves : LeavesHeader d e) (caps : e.pmCap = d.pmCap)
    (pm : ∀ cap, d.pmCap = some cap → e.config (cap + pciPmCtrl) = d.config (cap + pciPmCtrl)) :
    SameAddressInputs d e where
  enabled := leaves.enabled
  power := by rw [pciPmState_congr caps pm]
  command := by
    rw [pciGetWord_congr]
    intro i low high
    unfold pciCommand at low high
    exact leaves.header i (by unfold pciConfigHeaderSize; omega) (by unfold pciStatus; omega)
  header := leaves.header _ (by decide) (by decide)
  bars := by
    intro i inside
    have place : 0x10 ≤ i ∧ i < 0x28 ∨ 0x30 ≤ i ∧ i < 0x34 ∨ 0x38 ≤ i ∧ i < 0x3c := inside
    exact leaves.header i (by unfold pciConfigHeaderSize; omega) (by unfold pciStatus; omega)

theorem SameAddressInputs.of_changesOnly {window : Nat → Prop} (change : ChangesOnly window d e)
    (above : ∀ i, window i → pciConfigHeaderSize ≤ i)
    (pm : ∀ cap, d.pmCap = some cap → ¬window (cap + pciPmCtrl)) : SameAddressInputs d e := by
  apply SameAddressInputs.of_leavesHeader (change.leavesHeader above)
  · exact change.field PCIDevice.pmCap fun _ _ => rfl
  · exact fun cap present => change.bytes _ (pm cap present)

section

variable (inv : DeviceInv d)
include inv

theorem DeviceInv.msiRegisters_apart (hasPm : d.pmCap = some pm) :
    ¬MsiRegisters d (pm + pciPmCtrl) := by
  intro inside
  obtain ⟨msi, hasMsi, low, high⟩ := inside
  have apart := inv.pmMsi pm msi hasPm hasMsi
  unfold pciPmSizeof at apart
  unfold pciPmCtrl at low high
  omega

theorem DeviceInv.msixControl_apart (hasPm : d.pmCap = some pm) :
    ¬MsixControl d.msixCap (pm + pciPmCtrl) := by
  intro inside
  obtain ⟨msix, hasMsix, same⟩ := inside
  have apart := inv.pmMsix pm msix hasPm hasMsix
  unfold pciPmSizeof at apart
  unfold pciPmCtrl msixControlOffset at same
  omega

theorem IrqOnly.sameAddressInputs (change : IrqOnly d e) :
    SameAddressInputs d e := by
  apply SameAddressInputs.of_leavesHeader change.leavesHeader
  · exact change.field PCIDevice.pmCap fun _ _ _ => rfl
  · grind [DeviceInv, IrqOnly, pciConfigHeaderSize, pciStatus]

theorem SriovOnly.sameAddressInputs (change : SriovOnly d e) :
    SameAddressInputs d e := by
  have above := inv.sriovPlace change.sriov
  have low : ∀ i, i < pciConfigSpaceSize → e.config i = d.config i :=
    fun i below => (change.bytes i (.inl (by omega))).1
  refine ⟨change.field PCIDevice.enabled fun _ _ _ => rfl, ?_, ?_, low _ (by decide), ?_⟩
  · grind [DeviceInv, SriovOnly, pciPmSizeof, pciPmCtrl, pciPmState_congr]
  · rw [pciGetWord_congr]
    intro i _ high
    unfold pciCommand at high
    exact low i (by unfold pciConfigSpaceSize; omega)
  · intro i inside
    have place : 0x10 ≤ i ∧ i < 0x28 ∨ 0x30 ≤ i ∧ i < 0x34 ∨ 0x38 ≤ i ∧ i < 0x3c := inside
    exact low i (by unfold pciConfigSpaceSize; omega)

/-- A write that fires no trigger changes no input. -/
theorem WritesBytes.sameAddressInputs (writes : WritesBytes addr l d written)
    (quiet : mappingTrigger addr l (pciPmState d)
      (Pci.pciPmUpdate written addr l (pciPmState d)).1 = false) :
    SameAddressInputs d (Pci.pciPmUpdate written addr l (pciPmState d)).2 := by
  have update := pciPmUpdate_changesOnly written addr l (pciPmState d)
  have caps := writes.only.field PCIDevice.pmCap fun _ _ => rfl
  have fixed := (writes.sameFixed inv).trans
    ((writes.inv inv).pciPmUpdate addr l (pciPmState d)).1
  simp only [mappingTrigger, Bool.or_eq_false_iff, rangesOverlap_eq_false,
    rangeCoversByte_eq_false, bne_eq_false_iff_eq] at quiet
  obtain ⟨⟨⟨⟨bars, rom⟩, romBridge⟩, command⟩, power⟩ := quiet
  have header : ∀ i, i < pciConfigHeaderSize → ¬Span addr l i →
      (Pci.pciPmUpdate written addr l (pciPmState d)).2.config i = d.config i := by
    intro i low outside
    rw [update.bytes i, writes.only.bytes i outside]
    rw [caps]
    intro inside
    obtain ⟨cap, present, above, -⟩ := inside
    have place := (inv.pmPlace cap present).1
    omega
  refine ⟨?_, ?_, ?_, fixed.headerType, ?_⟩
  · rw [update.field PCIDevice.enabled fun _ _ => rfl,
      writes.only.field PCIDevice.enabled fun _ _ => rfl]
  · rw [pciPmUpdate_state writes]
    exact power
  · have byte := header pciCommand (by decide) (not_span.mpr command)
    have spaces : pciCommandSpaces = (3 : UInt8).toUInt16 ||| (0 : UInt8).toUInt16 <<< 8 := rfl
    rw [spaces]
    exact pciGetWord_mask_iff.mpr ⟨by rw [byte], by rw [UInt8.and_zero, UInt8.and_zero]⟩
  · intro i inside
    have place : 0x10 ≤ i ∧ i < 0x28 ∨ 0x30 ≤ i ∧ i < 0x34 ∨ 0x38 ≤ i ∧ i < 0x3c := inside
    unfold pciBaseAddress0 at bars
    unfold pciRomAddress at rom
    unfold pciRomAddress1 at romBridge
    exact header i (by unfold pciConfigHeaderSize; omega) (not_span.mpr (by omega))

end

/-- The condition on the regions is one on what stays of them. -/
theorem UpperHalvesFit.of_sameFixed (fits : UpperHalvesFit d) (same : SameFixed d e) :
    UpperHalvesFit e := by
  intro reg r there registered high
  have kinds := congrArg (·[reg]?) same.regions
  simp only [List.getElem?_map, there, Option.map_some] at kinds
  obtain ⟨before, thereBefore, kind⟩ := Option.map_eq_some_iff.mp kinds.symm
  simp only [PCIIORegion.kind, Prod.mk.injEq] at kind
  rw [← kind.2]
  exact fits reg before thereBefore (kind.1 ▸ registered) high

theorem MappingsFollow.write {val : UInt32} (follow : MappingsFollow allow0 d) (inv : DeviceInv d)
    (fits : UpperHalvesFit d) (ran : writeConfigLocal allow0 none d addr val l = .ok e) :
    MappingsFollow allow0 e := by
  obtain ⟨written, writes, ran⟩ := writeConfigLocal_eq_ok ran
  have updated := (writes.inv inv).pciPmUpdate addr l (pciPmState d)
  split at ran
  · rw [pciUpdateMappings_eq updated.2.consistent] at ran
    cases ran
    exact mappingsFollow_placed _
  · next quiet =>
    cases ran
    apply follow.congr inv fits
    · exact writes.sameAddressInputs inv (Bool.eq_false_of_not_eq_true quiet)
    · rw [(pciPmUpdate_changesOnly written addr l (pciPmState d)).field PCIDevice.ioRegions
        fun _ _ => rfl, writes.only.field PCIDevice.ioRegions fun _ _ => rfl]

theorem MappingsFollow.reset (inv : DeviceInv d) (fits : UpperHalvesFit d)
    (ran : resetLocal allow0 none d = .ok e) : MappingsFollow allow0 e := by
  obtain ⟨mapped, -, ranReset, same, fixed, kept⟩ := inv.resetLocal allow0 none
  rw [ranReset] at ran
  cases ran
  have follow : MappingsFollow allow0 mapped := by
    rw [same]
    exact mappingsFollow_placed _
  have fitsMapped := fits.of_sameFixed fixed
  have msi := kept.msiReset
  have followMsi : MappingsFollow allow0 (Pci.msiReset mapped) := by
    apply follow.congr kept fitsMapped
    · exact .of_changesOnly (msiReset_changesOnly mapped) (fun _ => kept.msiRegisters_above)
        (fun _ => kept.msiRegisters_apart)
    · exact (msiReset_changesOnly mapped).field PCIDevice.ioRegions fun _ _ => rfl
  apply followMsi.congr msi.2 (fitsMapped.of_sameFixed msi.1)
  · exact .of_changesOnly (msixReset_changesOnly _) (fun _ => msi.2.msixControl_above)
      (fun _ => msi.2.msixControl_apart)
  · exact (msixReset_changesOnly _).field PCIDevice.ioRegions fun _ _ => rfl

/-- Every move of a function that is not a VF keeps its regions where they should be. -/
theorem DeviceMove.mappingsFollow (move : DeviceMove allow0 d e) (inv : DeviceInv d)
    (notVf : d.pf = none) (fits : UpperHalvesFit d) (follow : MappingsFollow allow0 d) :
    MappingsFollow allow0 e := by
  cases move with
  | irq change =>
    exact follow.congr inv fits (change.sameAddressInputs inv)
      (change.field PCIDevice.ioRegions fun _ _ _ => rfl)
  | write pf addr val l own ran =>
    rw [own notVf] at ran
    have written := follow.write inv fits ran
    split
    · exact written
    · exact written
  | msi cap present =>
    have change := msiWriteLocal_registers present
    have inputs : SameAddressInputs d _ := .of_changesOnly change
      (fun _ => inv.msiRegisters_above) (fun _ => inv.msiRegisters_apart)
    exact follow.congr inv fits inputs (change.field PCIDevice.ioRegions fun _ _ => rfl)
  | reset pf own ran =>
    rw [own notVf] at ran
    exact .reset inv fits ran
  | sriov change =>
    exact follow.congr inv fits (change.sameAddressInputs inv)
      (change.field PCIDevice.ioRegions fun _ _ _ => rfl)
  | enable pf state virtual ran =>
    rw [notVf] at virtual
    cases virtual

theorem DeviceMoves.mappingsFollow (moves : DeviceMoves allow0 d e) (inv : DeviceInv d)
    (notVf : d.pf = none) (fits : UpperHalvesFit d) (follow : MappingsFollow allow0 d) :
    MappingsFollow allow0 e := by
  induction moves with
  | refl => exact follow
  | tail before move ih =>
    obtain ⟨same, kept⟩ := DeviceMoves.keeps before inv
    exact move.mappingsFollow kept (same.pf.trans notVf) (fits.of_sameFixed same)
      ih

end

/-! ### Runs -/

/-- A function as `pci_register_bar` leaves it: no region is mapped, and the command register
enables none. -/
structure BarsRegistered (d : PCIDevice) : Prop where
  unmapped : ∀ r ∈ d.ioRegions, r.size ≠ 0 → r.addr = pciBarUnmapped
  command : pciGetWord d.config pciCommand &&& pciCommandSpaces = 0

theorem BarsRegistered.mappingsFollow {d : PCIDevice} (registered : BarsRegistered d)
    (allow0 : Bool) : MappingsFollow allow0 d := by
  intro reg r there sized
  rw [registered.unmapped r (List.mem_of_getElem? there) sized]
  have masks : ∀ space, pciCommandSpaces &&& space = space →
      pciGetWord d.config pciCommand &&& space = 0 := by
    intro space inside
    rw [← inside, ← UInt16.and_assoc, registered.command, UInt16.zero_and]
  unfold regionAddress pciBarAddress
  dsimp only
  rw [if_pos (masks pciCommandIo (by decide)), if_pos (masks pciCommandMemory (by decide))]
  split_ifs <;> rfl

theorem reached_mappingsFollow {machine : PciMachine} {d : Nat}
    (registered : BarsRegistered (machine.start.dev d))
    (fits : UpperHalvesFit (machine.start.dev d)) {allowed : PciState → PciOp → Prop}
    {s : PciState} (reached : machine.system.ReachedBy allowed s) (there : s.present d = true)
    (notVf : (s.dev d).pf = none) :
    UpperHalvesFit (s.dev d) ∧ MappingsFollow machine.topo.allow0 (s.dev d) := by
  induction reached with
  | start initial =>
    cases initial
    exact ⟨fits, registered.mappingsFollow _⟩
  | step op before _ taken ih =>
    have inv := PciMachine.reached_inv before
    obtain ⟨thereBefore, moves⟩ := (inv.next taken).2 d there
    obtain ⟨same, -⟩ := DeviceMoves.keeps moves (inv.device d thereBefore)
    have notVfBefore := same.pf.symm.trans notVf
    obtain ⟨fitsBefore, follow⟩ := ih thereBefore notVfBefore
    exact ⟨fitsBefore.of_sameFixed same, DeviceMoves.mappingsFollow moves
      (inv.device d thereBefore) notVfBefore fitsBefore follow⟩

/-- In every state of every run, the regions of a function that is not a VF are mapped where
its configuration space says, if it was realized without a 64-bit region in the slots that
have no register for the upper half. -/
theorem bars_follow_config (machine : PciMachine) {d : Nat}
    (registered : BarsRegistered (machine.start.dev d))
    (fits : UpperHalvesFit (machine.start.dev d)) {s : PciState}
    (reached : machine.system.ReachedBy (fun _ _ => True) s) (there : s.present d = true)
    (notVf : (s.dev d).pf = none) {reg : Nat} {r : PCIIORegion}
    (region : (s.dev d).ioRegions[reg]? = some r) (sized : r.size ≠ 0) :
    (r.addr = if !(s.dev d).enabled || pciPmState (s.dev d) != 0 then pciBarUnmapped
      else pciBarAddress machine.topo.allow0 none (s.dev d) reg r.type r.size) ∧
    (r.mappedAt.isSome ↔ r.addr ≠ pciBarUnmapped) := by
  have inv := PciMachine.reached_inv reached
  have follow := (reached_mappingsFollow registered fits reached there notVf).2
  have consistent := (inv.device d there).consistent r (List.mem_of_getElem? region)
  refine ⟨follow reg r region sized, ?_⟩
  rw [← not_iff_not, Bool.not_eq_true, Option.isSome_eq_false_iff, Option.isNone_iff_eq_none,
    not_not]
  exact consistent.mappedAt_eq_none

/-- A function with one region of 4 KiB, whose registers are from `bar` on. -/
def oneBarDevice (slot bar : Nat) (type : UInt8) : PCIDevice where
  configSize := 0x100
  config := fun i => if i = bar then type else 0
  wmask := fun i =>
    if i = pciCommand then 0x07
    else if i = bar + 1 then 0xf0
    else if bar + 2 ≤ i ∧ i < bar + 8 then 0xff
    else 0
  w1cmask := fun _ => 0
  ioRegions := (List.replicate pciNumRegions {}).set slot { size := 0x1000, type }

def wideBar0 : PCIDevice := oneBarDevice 0 0x10 0x04

/-- A 64-bit region in the last slot of the base address registers. -/
def wideBar5 : PCIDevice := oneBarDevice 5 0x24 0x04

theorem oneBarDevice_inv {slot bar : Nat} {type : UInt8} (above : pciHeaderType < bar) :
    DeviceInv (oneBarDevice slot bar type) := by
  refine deviceInv_plain ⟨rfl, rfl, rfl, rfl, rfl⟩ ?_ ?_ ?_
  · unfold oneBarDevice
    dsimp only
    rw [if_neg (by decide), if_neg (by omega), if_neg (by omega)]
    rfl
  · unfold oneBarDevice
    rw [List.length_set, List.length_replicate]
  · intro r member
    rcases List.mem_or_eq_of_mem_set member with other | same
    · rw [List.eq_of_mem_replicate other]
      rfl
    · rw [same]
      rfl

/-- A 64-bit region moves above 4 GiB with a write to the upper half of its address. -/
theorem bars_follow_config_wide :
    ∃ s, (singleMachine wideBar0 (oneBarDevice_inv (by decide)) rfl rfl).system.ReachedBy
        (fun _ _ => True) s ∧
      ∃ r, (s.dev 0).ioRegions[0]? = some r ∧ r.addr = 0x110000000 ∧ r.mappedAt.isSome ∧
        r.addr = pciBarAddress false none (s.dev 0) 0 r.type r.size := by
  let machine := singleMachine wideBar0 (oneBarDevice_inv (by decide)) rfl rfl
  obtain ⟨s, reached, there, notVf, enabled, power, region⟩ :
      ∃ s, machine.system.ReachedBy (fun _ _ => True) s ∧ s.present 0 = true ∧
        (s.dev 0).pf = none ∧ (s.dev 0).enabled = true ∧ pciPmState (s.dev 0) = 0 ∧
        (s.dev 0).ioRegions[0]? = some
          { addr := 0x110000000, size := 0x1000, type := 4, mappedAt := some 0x110000000 } :=
    LabelledSystem.exists_reachedBy
      [.writeConfig 0 0x10 0x10000000 4, .writeConfig 0 4 2 2, .writeConfig 0 0x14 1 4]
      (by decide +kernel)
  have follow := bars_follow_config machine (d := 0)
    ⟨by decide, by decide +kernel⟩ (by
      intro reg r there sized high
      have five : reg = 5 ∨ reg = 6 := by
        have bound := (List.getElem?_eq_some_iff.mp there).1
        have seven : (wideBar0.ioRegions).length = 7 := rfl
        change reg < (wideBar0.ioRegions).length at bound
        omega
      rcases five with rfl | rfl <;> cases there <;> exact absurd rfl sized)
    reached there notVf region (by decide)
  rw [enabled, power] at follow
  exact ⟨s, reached, _, region, rfl, follow.2.mpr (by decide), follow.1⟩

/-- The upper half of a 64-bit region in slot 5 is at an offset that fires no trigger: the
region stays below 4 GiB. -/
theorem bar5_left_behind :
    ∃ s, (singleMachine wideBar5 (oneBarDevice_inv (by decide)) rfl rfl).system.ReachedBy
        (fun _ _ => True) s ∧
      BarsRegistered wideBar5 ∧ s.present 0 = true ∧ (s.dev 0).pf = none ∧
      (s.dev 0).enabled = true ∧ pciPmState (s.dev 0) = 0 ∧
      ∃ r, (s.dev 0).ioRegions[5]? = some r ∧ r.size ≠ 0 ∧ r.addr = 0x10000000 ∧
        pciBarAddress false none (s.dev 0) 5 r.type r.size = 0x110000000 := by
  let machine := singleMachine wideBar5 (oneBarDevice_inv (by decide)) rfl rfl
  obtain ⟨s, reached, there, notVf, enabled, power, region, address⟩ :
      ∃ s, machine.system.ReachedBy (fun _ _ => True) s ∧ s.present 0 = true ∧
        (s.dev 0).pf = none ∧ (s.dev 0).enabled = true ∧ pciPmState (s.dev 0) = 0 ∧
        (s.dev 0).ioRegions[5]? = some
          { addr := 0x10000000, size := 0x1000, type := 4, mappedAt := some 0x10000000 } ∧
        pciBarAddress false none (s.dev 0) 5 4 0x1000 = 0x110000000 :=
    LabelledSystem.exists_reachedBy
      [.writeConfig 0 0x24 0x10000000 4, .writeConfig 0 4 2 2, .writeConfig 0 0x28 1 4]
      (by decide +kernel)
  exact ⟨s, reached, ⟨by decide, by decide +kernel⟩, there, notVf, enabled, power, _, region,
    by decide, rfl, address⟩

end QemuGzvm.Pci
