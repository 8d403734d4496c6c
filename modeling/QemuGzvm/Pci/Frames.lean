import QemuGzvm.Pci.Device
import Mathlib.Tactic.IntervalCases

/-!
Contract: which bytes of the configuration space each change to a PCI function can reach.

Owns:
- `ChangesOnly`, a change to bytes of the configuration space inside a window and to
  nothing else;
- the window of each function of the device model;
- what `pci_update_mappings` makes of the regions.
-/

namespace QemuGzvm.Pci

open QemuGzvm.Library

/-- The `size` bytes from `first` on. -/
def Span (first size i : Nat) : Prop := first ≤ i ∧ i < first + size

instance (first size i : Nat) : Decidable (Span first size i) :=
  inferInstanceAs (Decidable (_ ∧ _))

variable {i offset reg : Nat} {config : Bytes} {mask : UInt16} {d e : PCIDevice} {r : PCIIORegion}
  {regions : List PCIIORegion} {target : Nat → PCIIORegion → UInt64}

theorem not_span {first size : Nat} : ¬Span first size i ↔ i < first ∨ first + size ≤ i := by
  unfold Span
  omega

/-- `e` is `d` with bytes of its configuration space changed, all of them in `window`. -/
structure ChangesOnly (window : Nat → Prop) (d e : PCIDevice) : Prop where
  rest : e = { d with config := e.config }
  bytes : ∀ i, ¬window i → e.config i = d.config i

namespace ChangesOnly

variable {window wider : Nat → Prop} {f : PCIDevice}

theorem refl (d : PCIDevice) : ChangesOnly window d d := ⟨rfl, fun _ _ => rfl⟩

theorem ofConfig {config : Bytes} (same : ∀ i, ¬window i → config i = d.config i) :
    ChangesOnly window d { d with config } := ⟨rfl, same⟩

theorem trans (first : ChangesOnly window d e) (second : ChangesOnly window e f) :
    ChangesOnly window d f where
  rest := by
    have third := second.rest
    rw [first.rest] at third
    exact third
  bytes := by
    intro i outside
    rw [second.bytes i outside, first.bytes i outside]

theorem mono (change : ChangesOnly window d e) (inside : ∀ i, window i → wider i) :
    ChangesOnly wider d e :=
  ⟨change.rest, fun i outside => change.bytes i fun inWindow => outside (inside i inWindow)⟩

theorem field {α : Type} (change : ChangesOnly window d e) (project : PCIDevice → α)
    (ignores : ∀ (d : PCIDevice) config, project { d with config } = project d) :
    project e = project d := by
  rw [change.rest]
  exact ignores d e.config

end ChangesOnly

/-! ### Power state -/

def PmCtrl (pmCap : Option Nat) (i : Nat) : Prop :=
  ∃ cap, pmCap = some cap ∧ Span (cap + pciPmCtrl) 2 i

theorem pciWordTestAndClearMask_outside (outside : ¬Span offset 2 i) :
    pciWordTestAndClearMask config offset mask i = config i :=
  pciSetWord_outside (not_span.mp outside)

theorem pciPmUpdate_changesOnly (d : PCIDevice) (addr l : Nat) (old : UInt16) :
    ChangesOnly (PmCtrl d.pmCap) d (pciPmUpdate d addr l old).2 := by
  unfold pciPmUpdate
  split
  · exact .refl d
  · next cap present =>
    dsimp only
    split_ifs
    · exact .refl d
    · exact .refl d
    · apply ChangesOnly.ofConfig
      intro i outside
      have apart : ¬Span (cap + pciPmCtrl) 2 i := fun inside => outside ⟨cap, present, inside⟩
      exact (pciSetWord_outside (not_span.mp apart)).trans (pciWordTestAndClearMask_outside apart)
    · exact .refl d

/-! ### Writes -/

/-- The bytes of a write: those inside the range become what the masks let the value
make of them. -/
structure WritesBytes (addr l : Nat) (d e : PCIDevice) : Prop where
  only : ChangesOnly (Span addr l) d e
  written : ∀ i, Span addr l i →
    ∃ val, e.config i = writtenByte (d.config i) (d.wmask i) (d.w1cmask i) val

theorem writeConfigBytes_writes {l addr : Nat} {val : UInt32}
    (ran : writeConfigBytes l addr val d = .ok e) : WritesBytes addr l d e := by
  induction l generalizing addr val d with
  | zero =>
    cases ran
    refine ⟨.refl _, ?_⟩
    intro i inside
    unfold Span at inside
    omega
  | succ l ih =>
    rw [writeConfigBytes] at ran
    split at ran
    · cases ran
    · have later := ih ran
      have here : ChangesOnly (Span addr (l + 1)) d
          { d with
            config := pciSetByte d.config addr
              (writtenByte (d.config addr) (d.wmask addr) (d.w1cmask addr) val.toUInt8) } := by
        apply ChangesOnly.ofConfig
        intro i outside
        apply pciSetByte_outside
        have apart := not_span.mp outside
        omega
      refine ⟨here.trans (later.only.mono ?_), ?_⟩
      · intro i inside
        unfold Span at inside ⊢
        omega
      · intro i inside
        by_cases first : i = addr
        · subst first
          refine ⟨val.toUInt8, ?_⟩
          rw [later.only.bytes i (not_span.mpr (.inl (Nat.lt_succ_self i)))]
          exact pciSetByte_self _ _ _
        · obtain ⟨value, becomes⟩ := later.written i (by unfold Span at inside ⊢; omega)
          refine ⟨value, ?_⟩
          rw [becomes]
          dsimp only
          rw [pciSetByte_outside (by unfold Span at inside; omega)]

/-! ### MSI and MSI-X -/

theorem msiSendPending_outside {cap : Nat} {flags : UInt16} {pending : UInt32}
    (outside : ¬Span (msiPendingOff cap flags) 4 i) :
    msiSendPending config cap flags pending i = config i := by
  unfold msiSendPending
  induction List.range (msiNrVectors flags) generalizing config with
  | nil => rfl
  | cons vector rest ih =>
    rw [List.foldl_cons, ih]
    split_ifs
    · rfl
    · exact pciSetLong_outside (not_span.mp outside)

/-- The bits of the flags that say which registers the capability has. -/
def msiKindMask : UInt16 := pciMsiFlags64bit ||| pciMsiFlagsMaskbit

section Kind

variable {flags other : UInt16} (same : flags &&& msiKindMask = other &&& msiKindMask)

include same

theorem msi64bit_congr : msi64bit flags = msi64bit other := by
  have bit : pciMsiFlags64bit = msiKindMask &&& pciMsiFlags64bit := by decide
  unfold msi64bit
  rw [bit, ← UInt16.and_assoc, ← UInt16.and_assoc, same]

theorem msiPerVectorMask_congr : msiPerVectorMask flags = msiPerVectorMask other := by
  have bit : pciMsiFlagsMaskbit = msiKindMask &&& pciMsiFlagsMaskbit := by decide
  unfold msiPerVectorMask
  rw [bit, ← UInt16.and_assoc, ← UInt16.and_assoc, same]

theorem msiCapSizeof_congr : msiCapSizeof flags = msiCapSizeof other := by
  unfold msiCapSizeof
  rw [msi64bit_congr same, msiPerVectorMask_congr same]

end Kind

theorem msiClampVectors_kind (flags : UInt16) :
    msiClampVectors flags &&& msiKindMask = flags &&& msiKindMask := by
  unfold msiClampVectors
  dsimp only
  split
  · apply UInt16.toBitVec_inj.mp
    ext bit inside
    interval_cases bit <;>
      simp [msiKindMask, pciMsiFlagsQsize, pciMsiFlagsQmask, pciMsiFlags64bit, pciMsiFlagsMaskbit]
  · rfl

theorem msiWriteLocal_changesOnly (d : PCIDevice) (cap : Nat) (flags : UInt16) :
    ChangesOnly (fun i => Span (cap + pciMsiFlags) 2 i ∨
      msiPerVectorMask flags ∧ Span (msiPendingOff cap flags) 4 i) d (msiWriteLocal d cap flags) := by
  have clamped : ∀ i, ¬Span (cap + pciMsiFlags) 2 i →
      (if msiClampVectors flags = flags then d.config
        else pciSetWord d.config (cap + pciMsiFlags) (msiClampVectors flags)) i = d.config i := by
    intro i outside
    split
    · rfl
    · exact pciSetWord_outside (not_span.mp outside)
  unfold msiWriteLocal
  split
  · grind [ChangesOnly.ofConfig]
  · next masked =>
    apply ChangesOnly.ofConfig
    intro i outside
    have apart : ¬Span (msiPendingOff cap flags) 4 i :=
      fun inside => outside (.inr ⟨by simpa using masked, inside⟩)
    rw [msiSendPending_outside, pciSetLong_outside (not_span.mp apart)]
    · exact clamped i fun inside => outside (.inl inside)
    · rw [msiPendingOff, msi64bit_congr (msiClampVectors_kind flags)]
      exact apart

/-- The registers of the MSI capability, from the flags on. -/
def MsiRegisters (d : PCIDevice) (i : Nat) : Prop :=
  ∃ cap, d.msiCap = some cap ∧ cap + pciMsiFlags ≤ i ∧
    i < cap + msiCapSizeof (pciGetWord d.config (cap + pciMsiFlags))

theorem msiReset_kind (flags : UInt16) :
    flags &&& ~~~(pciMsiFlagsQsize ||| pciMsiFlagsEnable) &&& msiKindMask =
      flags &&& msiKindMask := by
  have mask : ~~~(pciMsiFlagsQsize ||| pciMsiFlagsEnable) &&& msiKindMask = msiKindMask := by
    decide
  rw [UInt16.and_assoc, mask]

theorem msiReset_changesOnly (d : PCIDevice) : ChangesOnly (MsiRegisters d) d (msiReset d) := by
  unfold msiReset
  split
  · exact .refl d
  · next cap present =>
    apply ChangesOnly.ofConfig
    intro i outside
    have kind := msiReset_kind (pciGetWord d.config (cap + pciMsiFlags))
    have apart : i < cap + pciMsiFlags ∨
        cap + msiCapSizeof (pciGetWord d.config (cap + pciMsiFlags)) ≤ i := by
      by_contra inside
      exact outside ⟨cap, present, by omega, by omega⟩
    rw [← msiCapSizeof_congr kind] at apart
    revert apart
    generalize pciGetWord d.config (cap + pciMsiFlags) &&&
      ~~~(pciMsiFlagsQsize ||| pciMsiFlagsEnable) = flags
    intro apart
    cases wide : msi64bit flags <;> cases masked : msiPerVectorMask flags <;>
      simp only [msiCapSizeof, wide, masked, msiDataOff, msiMaskOff, msiPendingOff, if_true,
        Bool.false_eq_true, if_false, pciMsiFlags] at apart ⊢ <;>
      simp only [pciSetLong, pciSetWord] <;>
      repeat rw [Bytes.store_outside (by omega)]

def MsixControl (msixCap : Option Nat) (i : Nat) : Prop :=
  ∃ cap, msixCap = some cap ∧ i = cap + msixControlOffset

theorem msixReset_changesOnly (d : PCIDevice) :
    ChangesOnly (MsixControl d.msixCap) d (msixReset d) := by
  unfold msixReset
  split
  · exact .refl d
  · next cap present =>
    apply ChangesOnly.ofConfig
    intro i outside
    have apart : i ≠ cap + msixControlOffset := fun same => outside ⟨cap, present, same⟩
    exact pciSetByte_outside (by omega)

/-! ### Mappings -/

namespace PCIIORegion

/-- What stays of a region whatever the guest does. -/
def kind (r : PCIIORegion) : UInt64 × UInt8 := (r.size, r.type)

def Consistent (r : PCIIORegion) : Prop :=
  r.mappedAt = if r.addr = pciBarUnmapped then none else some r.addr

instance (r : PCIIORegion) : Decidable r.Consistent := inferInstanceAs (Decidable (_ = _))

def place (addr : UInt64) (r : PCIIORegion) : PCIIORegion :=
  { r with addr, mappedAt := if addr = pciBarUnmapped then none else some addr }

theorem Consistent.mappedAt_eq_none {r : PCIIORegion} (consistent : r.Consistent) :
    r.mappedAt = none ↔ r.addr = pciBarUnmapped := by
  rw [consistent]
  simp

end PCIIORegion

theorem updateRegion_kind {newAddr : UInt64} {after : PCIIORegion}
    (ran : updateRegion newAddr r = .ok after) : after.kind = r.kind := by
  unfold updateRegion at ran
  split at ran
  · cases ran
    rfl
  · obtain ⟨middle, removed, ran⟩ := bind_eq_ok.mp ran
    have first : middle.kind = r.kind := by
      unfold memoryRegionDelSubregion at removed
      split_ifs at removed <;> cases removed <;> rfl
    rw [← first]
    unfold memoryRegionAddSubregionOverlap at ran
    split_ifs at ran <;> cases ran <;> rfl

theorem updateRegion_eq (consistent : r.Consistent) (newAddr : UInt64) :
    updateRegion newAddr r = .ok (r.place newAddr) := by
  unfold updateRegion
  split
  · next same =>
    subst same
    rw [PCIIORegion.place, ← consistent]
  · have removed :
        (if r.addr ≠ pciBarUnmapped then memoryRegionDelSubregion r else .ok r) =
          .ok { r with mappedAt := none } := by
      have mapped := consistent.mappedAt_eq_none
      split
      · next away =>
        rw [memoryRegionDelSubregion, if_neg (fun none => away (mapped.mp none))]
      · next gone =>
        rw [← mapped.mpr (not_not.mp gone)]
    rw [removed, bind_ok]
    unfold memoryRegionAddSubregionOverlap PCIIORegion.place
    by_cases unmapped : newAddr = pciBarUnmapped
    · rw [if_neg (not_not.mpr unmapped), if_pos unmapped]
    · rw [if_pos unmapped, if_neg unmapped, if_neg (not_not.mpr rfl)]

theorem updateRegions_kind {after : List PCIIORegion}
    (ran : updateRegions target reg regions = .ok after) :
    after.map PCIIORegion.kind = regions.map PCIIORegion.kind := by
  induction regions generalizing reg after with
  | nil =>
    cases ran
    rfl
  | cons r rest ih =>
    obtain ⟨first, moved, ran⟩ := bind_eq_ok.mp ran
    obtain ⟨others, ranRest, ran⟩ := bind_eq_ok.mp ran
    cases ran
    have same : first.kind = r.kind := by
      split at moved
      · cases moved
        rfl
      · exact updateRegion_kind moved
    rw [List.map_cons, List.map_cons, same, ih ranRest]

/-- Every region of a size is placed where `target` says. -/
theorem updateRegions_eq (consistent : ∀ r ∈ regions, r.Consistent) :
    updateRegions target reg regions = .ok (regions.mapIdx fun i r =>
      if r.size = 0 then r else r.place (target (reg + i) r)) := by
  induction regions generalizing reg with
  | nil => rfl
  | cons r rest ih =>
    have first : (if r.size = 0 then .ok r else updateRegion (target reg r) r) =
        (.ok (if r.size = 0 then r else r.place (target reg r)) : Checked PCIIORegion) := by
      split
      · rfl
      · exact updateRegion_eq (consistent r List.mem_cons_self) _
    have later : updateRegions target (reg + 1) rest = _ :=
      ih fun other member => consistent other (List.mem_cons_of_mem _ member)
    rw [updateRegions, first, bind_ok, later, bind_ok, List.mapIdx_cons]
    simp only [Nat.add_zero, Nat.add_assoc, Nat.add_comm 1]

theorem pciUpdateMappings_kind {allow0 : Bool} {pf : Option PCIDevice}
    (ran : pciUpdateMappings allow0 pf d = .ok e) :
    e = { d with ioRegions := e.ioRegions } ∧
      e.ioRegions.map PCIIORegion.kind = d.ioRegions.map PCIIORegion.kind := by
  obtain ⟨regions, moved, ran⟩ := bind_eq_ok.mp ran
  cases ran
  exact ⟨rfl, updateRegions_kind moved⟩

/-- The regions of a function whose regions are consistent, after their update. -/
def placedRegions (allow0 : Bool) (pf : Option PCIDevice) (d : PCIDevice) : List PCIIORegion :=
  d.ioRegions.mapIdx fun reg r =>
    if r.size = 0 then r else r.place (regionAddress allow0 pf d reg r)

theorem pciUpdateMappings_eq (consistent : ∀ r ∈ d.ioRegions, r.Consistent) (allow0 : Bool)
    (pf : Option PCIDevice) :
    pciUpdateMappings allow0 pf d =
      .ok { d with ioRegions := placedRegions allow0 pf d } := by
  rw [pciUpdateMappings, updateRegions_eq consistent, bind_ok, placedRegions]
  simp

theorem placedRegions_consistent (consistent : ∀ r ∈ d.ioRegions, r.Consistent) (allow0 : Bool)
    (pf : Option PCIDevice) :
    ∀ r ∈ placedRegions allow0 pf d, r.Consistent := by
  intro r member
  obtain ⟨reg, small, same⟩ := List.mem_mapIdx.mp member
  rw [← same]
  split
  · exact consistent _ (List.getElem_mem small)
  · rfl

/-! ### Reset -/

/-- The base address registers and those behind them, up to the end of the header. -/
def RegionRegisters (i : Nat) : Prop := Span pciBaseAddress0 0x30 i

theorem pciBar_inside (d : PCIDevice) (reg : Nat) (small : reg < pciNumRegions) :
    pciBaseAddress0 ≤ pciBar d reg ∧ pciBar d reg + 8 ≤ pciBaseAddress0 + 0x30 := by
  have bound : reg < 7 := small
  unfold pciBar
  split
  · next other =>
    omega
  · split <;> decide

theorem resetRegions_outside (d : PCIDevice) (outside : ¬RegionRegisters i)
    (few : reg + regions.length ≤ pciNumRegions) :
    resetRegions d reg regions config i = config i := by
  induction regions generalizing reg config with
  | nil => rfl
  | cons r rest ih =>
    rw [List.length_cons] at few
    have place := pciBar_inside d reg (by omega)
    have apart := not_span.mp outside
    rw [resetRegions, ih (by omega)]
    split_ifs
    · rfl
    · exact pciSetQuad_outside (by omega)
    · exact pciSetLong_outside (by omega)

theorem pciResetRegions_changesOnly (d : PCIDevice) (few : d.ioRegions.length ≤ pciNumRegions) :
    ChangesOnly RegionRegisters d (pciResetRegions d) := by
  unfold pciResetRegions
  split
  · exact .refl d
  · apply ChangesOnly.ofConfig
    intro i outside
    exact resetRegions_outside d outside (by omega)

/-- What a reset clears in the header and the power state. -/
def ResetRegisters (d : PCIDevice) (i : Nat) : Prop :=
  Span pciCommand 4 i ∨ i = pciInterruptLine ∨ i = pciCacheLineSize ∨ PmCtrl d.pmCap i

theorem resetConfig_changesOnly (d : PCIDevice) :
    ChangesOnly (ResetRegisters d) d (resetConfig d) := by
  have header : ∀ i, ¬ResetRegisters d i →
      pciSetByte (pciByteTestAndClearMask (pciWordTestAndClearMask (pciWordTestAndClearMask
        d.config pciCommand (resetMask d pciCommand)) pciStatus (resetMask d pciStatus))
        pciInterruptLine (resetMask d pciInterruptLine).toUInt8) pciCacheLineSize 0 i =
      d.config i := by
    intro i outside
    have command : ¬Span pciCommand 4 i := fun inside => outside (.inl inside)
    have line : i ≠ pciInterruptLine := fun inside => outside (.inr (.inl inside))
    have cacheLine : i ≠ pciCacheLineSize := fun inside => outside (.inr (.inr (.inl inside)))
    have apart := not_span.mp command
    have status : pciStatus = pciCommand + 2 := rfl
    rw [pciSetByte_outside (by omega), pciByteTestAndClearMask, pciSetByte_outside (by omega),
      pciWordTestAndClearMask_outside (not_span.mpr (by omega)),
      pciWordTestAndClearMask_outside (not_span.mpr (by omega))]
  unfold resetConfig
  split
  · exact .ofConfig header
  · next cap present =>
    apply ChangesOnly.ofConfig
    intro i outside
    rw [pciWordTestAndClearMask_outside]
    · exact header i outside
    · exact fun inside => outside (.inr (.inr (.inr ⟨cap, present, inside⟩)))

end QemuGzvm.Pci
