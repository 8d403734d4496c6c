import QemuGzvm.Pci.Moves
import Mathlib.Data.FinEnum

/-!
Contract: the interrupt lines of a PCI hierarchy and the pins that drive them.

Owns:
- `driven` and `asserting`, the pins that are asserted and not masked;
- `Counted`, that the counts at the buses are those of a set of pins;
- what the calls that change a line make of the counts.

Between the steps of a call the counts are those of another set of pins than the one
asserted at that moment, which is why `Counted` speaks of any set.
-/

namespace QemuGzvm.Pci

open QemuGzvm.Library

/-! ### Pins -/

/-- The pin is asserted and the interrupts of the function are not disabled. -/
def driven (dev : PCIDevice) (pin : Nat) : Bool :=
  pciIrqState dev pin == 1 && !pciIrqDisabled dev

section

variable (topo : PciTopology)

def asserting (s : PciState) : Finset (Nat × Nat) :=
  (topo.devices ×ˢ Finset.range pciNumPins).filter fun p =>
    s.present p.1 && driven (s.dev p.1) p.2

def routedTo (bus : Nat) (line : Int) (pins : Finset (Nat × Nat)) : Finset (Nat × Nat) :=
  pins.filter fun p => pciRoute topo p.1 p.2 = .ok (bus, line)

/-- The counts and levels of all lines are those of `pins`, all of which have a line. -/
structure Counted (s : PciState) (pins : Finset (Nat × Nat)) : Prop where
  count : ∀ bus line, s.irqCount bus line = (routedTo topo bus line pins).card
  level : ∀ bus line, s.level bus line = decide (s.irqCount bus line ≠ 0)
  routed : ∀ p ∈ pins, ∃ bus line, pciRoute topo p.1 p.2 = .ok (bus, line) ∧ 0 ≤ line ∧
    line < topo.nirq bus

end

structure LinesOnly (s t : PciState) : Prop where
  dev : t.dev = s.dev
  present : t.present = s.present

variable {topo : PciTopology} {s t : PciState} {pins : Finset (Nat × Nat)} {d : Nat}

variable {p : Nat × Nat} {pin : Nat} {dev : PCIDevice} {rest : List Nat}

theorem mem_asserting :
    p ∈ asserting topo s ↔ (p.1 ∈ topo.devices ∧ p.2 < pciNumPins) ∧
      s.present p.1 = true ∧ driven (s.dev p.1) p.2 = true := by
  simp [asserting]

theorem PciTopology.mem_devices {b : Nat} (slot : d ∈ topo.slots b) : d ∈ topo.devices := by
  unfold PciTopology.devices
  simp only [Finset.mem_biUnion, Finset.mem_range, List.mem_toFinset]
  exact ⟨b, topo.lt_of_mem b d slot, slot⟩

theorem PciState.setDev_self (s : PciState) (d : Nat) (dev : PCIDevice) :
    (s.setDev d dev).dev d = dev := Function.update_self ..

theorem PciState.setDev_of_ne {d e : Nat} (other : e ≠ d) (s : PciState) (dev : PCIDevice) :
    (s.setDev d dev).dev e = s.dev e := Function.update_of_ne other _ _

/-! ### Routes -/

section Counting

variable {bus line}

theorem routedTo_erase (pins : Finset (Nat × Nat)) :
    routedTo topo bus line (pins.erase p) = (routedTo topo bus line pins).erase p := by
  unfold routedTo
  rw [Finset.filter_erase]

end Counting

theorem pciChangeIrqLevel_eq_ok {change : Int} :
    pciChangeIrqLevel topo s d pin change = .ok t ↔
      ∃ bus line, pciRoute topo d pin = .ok (bus, line) ∧ 0 ≤ line ∧ line < topo.nirq bus ∧
        t = { s with
          irqCount := Function.update s.irqCount bus
            (Function.update (s.irqCount bus) line (s.irqCount bus line + change))
          level := Function.update s.level bus
            (Function.update (s.level bus) line (decide (s.irqCount bus line + change ≠ 0))) } := by
  grind [pciChangeIrqLevel, bind_eq_ok, pciBusChangeIrqLevel]

theorem pciChangeIrqLevel_returns {bus : Nat} {line : Int}
    (route : pciRoute topo d pin = .ok (bus, line)) (inside : 0 ≤ line ∧ line < topo.nirq bus)
    (s : PciState) (change : Int) : ∃ t, pciChangeIrqLevel topo s d pin change = .ok t :=
  ⟨_, pciChangeIrqLevel_eq_ok.mpr ⟨bus, line, route, inside.1, inside.2, rfl⟩⟩

theorem pciChangeIrqLevel_linesOnly {change : Int}
    (ran : pciChangeIrqLevel topo s d pin change = .ok t) : LinesOnly s t := by
  obtain ⟨bus, line, -, -, -, same⟩ := pciChangeIrqLevel_eq_ok.mp ran
  rw [same]
  exact ⟨rfl, rfl⟩

section

variable (counted : Counted topo s pins) {after : Finset (Nat × Nat)}
include counted

theorem Counted.change {change : Int} (ran : pciChangeIrqLevel topo s d pin change = .ok t)
    (subset : ∀ p ∈ after, p = (d, pin) ∨ p ∈ pins)
    (here : ∀ bus line, pciRoute topo d pin = .ok (bus, line) →
      ((routedTo topo bus line after).card : Int) = (routedTo topo bus line pins).card + change)
    (elsewhere : ∀ bus line, pciRoute topo d pin ≠ .ok (bus, line) →
      routedTo topo bus line after = routedTo topo bus line pins) : Counted topo t after := by
  obtain ⟨bus, line, route, low, high, same⟩ := pciChangeIrqLevel_eq_ok.mp ran
  have counts : ∀ b i, t.irqCount b i = (routedTo topo b i after).card := by
    intro b i
    rw [same]
    dsimp only
    by_cases hit : b = bus ∧ i = line
    · obtain ⟨rfl, rfl⟩ := hit
      rw [Function.update_self, Function.update_self, counted.count, here b i route]
    · have other : pciRoute topo d pin ≠ .ok (b, i) := by
        rw [route]
        intro equal
        cases equal
        exact hit ⟨rfl, rfl⟩
      rw [elsewhere b i other, ← counted.count]
      by_cases sameBus : b = bus
      · subst sameBus
        rw [Function.update_self, Function.update_of_ne fun sameLine => hit ⟨rfl, sameLine⟩]
      · rw [Function.update_of_ne sameBus]
  refine ⟨counts, ?_, ?_⟩
  · intro b i
    rw [same]
    by_cases sameBus : b = bus
    · subst sameBus
      by_cases sameLine : i = line
      · subst sameLine
        simp
      · simp only [Function.update_self, Function.update_of_ne sameLine]
        exact counted.level b i
    · simp only [Function.update_of_ne sameBus]
      exact counted.level b i
  · grind [Counted]

theorem Counted.insert (new : (d, pin) ∉ pins) (ran : pciChangeIrqLevel topo s d pin 1 = .ok t) :
    Counted topo t (insert (d, pin) pins) := by
  apply counted.change ran
  · exact fun p member => Finset.mem_insert.mp member
  · intro bus line route
    have absent : (d, pin) ∉ routedTo topo bus line pins :=
      fun member => new (Finset.mem_filter.mp member).1
    rw [routedTo, Finset.filter_insert, if_pos route, ← routedTo,
      Finset.card_insert_of_notMem absent, Nat.cast_add, Nat.cast_one]
  · intro bus line route
    rw [routedTo, Finset.filter_insert, if_neg route, routedTo]

theorem Counted.erase (old : (d, pin) ∈ pins) :
    ∃ t, pciChangeIrqLevel topo s d pin (-1) = .ok t ∧
      Counted topo t (pins.erase (d, pin)) := by
  obtain ⟨bus, line, route, low, high⟩ := counted.routed (d, pin) old
  obtain ⟨t, ran⟩ := pciChangeIrqLevel_returns route ⟨low, high⟩ s (-1)
  refine ⟨t, ran, counted.change ran ?_ ?_ ?_⟩
  · exact fun p member => .inr (Finset.mem_of_mem_erase member)
  · intro b i hit
    have member : (d, pin) ∈ routedTo topo b i pins := Finset.mem_filter.mpr ⟨old, hit⟩
    have positive := Finset.card_pos.mpr ⟨_, member⟩
    rw [routedTo_erase, Finset.card_erase_of_mem member]
    omega
  · intro b i other
    rw [routedTo_erase]
    apply Finset.erase_eq_of_notMem
    exact fun member => other (Finset.mem_filter.mp member).2

theorem Counted.zero (ran : pciChangeIrqLevel topo s d pin 0 = .ok t) : Counted topo t pins := by
  apply counted.change ran
  · exact fun p member => .inr member
  · exact fun bus line route => (Int.add_zero _).symm
  · exact fun bus line route => rfl

theorem Counted.congr (counts : t.irqCount = s.irqCount) (levels : t.level = s.level)
    (same : after = pins) : Counted topo t after := by
  subst same
  refine ⟨?_, ?_, counted.routed⟩
  · rw [counts]
    exact counted.count
  · rw [counts, levels]
    exact counted.level

end

/-! ### The state of the pins -/

theorem irqState_set : ∀ (state : UInt8) (pin other : Fin 4) (level : Fin 2), state < 16 →
    ((state &&& ~~~(1 <<< UInt8.ofNat pin)) ||| (UInt8.ofNat level <<< UInt8.ofNat pin)) < 16 ∧
      ((((state &&& ~~~(1 <<< UInt8.ofNat pin)) ||| (UInt8.ofNat level <<< UInt8.ofNat pin)) >>>
        UInt8.ofNat other) &&& 1).toNat =
        if other.val = pin.val then level.val
        else ((state >>> UInt8.ofNat other) &&& 1).toNat := by
  decide +kernel

theorem irqState_eq_zero : ∀ state : UInt8, state < 16 →
    (∀ pin : Fin 4, ((state >>> UInt8.ofNat pin) &&& 1).toNat = 0) → state = 0 := by
  decide +kernel

theorem pciIrqState_bounds (dev : PCIDevice) (pin : Nat) :
    pciIrqState dev pin = 0 ∨ pciIrqState dev pin = 1 := by
  have bits : ∀ byte : UInt8, (byte &&& 1).toNat = 0 ∨ (byte &&& 1).toNat = 1 := by
    decide +kernel
  rcases bits (dev.irqState >>> UInt8.ofNat pin) with low | high
  · exact .inl (congrArg Nat.cast low)
  · exact .inr (congrArg Nat.cast high)

theorem pciIrqState_zero (clear : dev.irqState = 0) (pin : Nat) : pciIrqState dev pin = 0 := by
  unfold pciIrqState
  rw [clear, UInt8.zero_shiftRight, UInt8.zero_and]
  rfl

theorem driven_eq_false (clear : dev.irqState = 0) (pin : Nat) : driven dev pin = false := by
  rw [driven, pciIrqState_zero clear]
  rfl

theorem pciIrqDisabled_congr {other : PCIDevice}
    (same : ∀ i, Span pciCommand 2 i → dev.config i = other.config i) :
    pciIrqDisabled dev = pciIrqDisabled other := by
  unfold pciIrqDisabled
  rw [pciGetWord_congr fun i low high => same i ⟨low, high⟩]

/-- The function with one of its pins set, as `pci_irq_handler` leaves it. -/
theorem setPin_spec (small : dev.irqState < 16) {level : Nat} (pinBound : pin < pciNumPins)
    (levelBound : level ≤ 1) :
    IrqOnly dev (pciUpdateIrqStatus (pciSetIrqState dev pin level)) ∧
      ∀ other, other < pciNumPins →
        pciIrqState (pciUpdateIrqStatus (pciSetIrqState dev pin level)) other =
          if other = pin then (level : Int) else pciIrqState dev other := by
  have states := fun other => irqState_set dev.irqState ⟨pin, pinBound⟩ other
    ⟨level, by omega⟩ small
  refine ⟨⟨rfl, ?_, (states 0).1⟩, ?_⟩
  · intro i elsewhere
    exact pciSetByte_outside (by omega)
  · intro other bound
    have bit := (states ⟨other, bound⟩).2
    change (((((dev.irqState &&& ~~~(1 <<< UInt8.ofNat pin)) |||
      (UInt8.ofNat level <<< UInt8.ofNat pin)) >>> UInt8.ofNat other) &&& 1).toNat : Int) = _
    rw [bit]
    exact Nat.cast_ite _ _ _

/-! ### Calls that change lines -/

structure LineInv (topo : PciTopology) (s : PciState) : Prop where
  small : ∀ d, s.present d = true → (s.dev d).irqState < 16
  slot : ∀ d, s.present d = true → d ∈ topo.slots (topo.busOf d)
  counted : Counted topo s (asserting topo s)

/-- The pins of `d` changed, and lines. -/
structure IrqStep (d : Nat) (s t : PciState) : Prop where
  present : t.present = s.present
  others : ∀ e, e ≠ d → t.dev e = s.dev e
  own : IrqOnly (s.dev d) (t.dev d)

theorem IrqOnly.refl (small : dev.irqState < 16) : IrqOnly dev dev :=
  ⟨rfl, fun _ _ => rfl, small⟩

theorem IrqOnly.trans {middle last : PCIDevice} (first : IrqOnly dev middle)
    (second : IrqOnly middle last) : IrqOnly dev last where
  rest := by
    have third := second.rest
    rw [first.rest] at third
    exact third
  bytes := by
    intro i elsewhere
    rw [second.bytes i elsewhere, first.bytes i elsewhere]
  small := second.small

theorem IrqOnly.disabled {after : PCIDevice} (change : IrqOnly dev after) :
    pciIrqDisabled after = pciIrqDisabled dev := by
  grind [IrqOnly, Span, pciCommand, pciStatus, pciIrqDisabled_congr]

theorem IrqStep.trans {u : PciState} (first : IrqStep d s t) (second : IrqStep d t u) :
    IrqStep d s u where
  present := second.present.trans first.present
  others := fun e other => (second.others e other).trans (first.others e other)
  own := first.own.trans second.own

theorem asserting_congr (present : t.present = s.present)
    (same : ∀ d pin, s.present d = true → pin < pciNumPins →
      driven (t.dev d) pin = driven (s.dev d) pin) : asserting topo t = asserting topo s := by
  ext ⟨d, pin⟩
  rw [mem_asserting, mem_asserting, present]
  constructor
  · intro member
    rw [same d pin member.2.1 member.1.2] at member
    exact member
  · intro member
    rw [same d pin member.2.1 member.1.2]
    exact member

namespace LineInv

variable {level : Nat}

section

variable (inv : LineInv topo s)
include inv

theorem of_step (step : IrqStep d s t) (counted : Counted topo t (asserting topo t)) :
    LineInv topo t where
  small := by
    intro e there
    by_cases same : e = d
    · subst same
      exact step.own.small
    · rw [step.others e same]
      rw [step.present] at there
      exact inv.small e there
  slot := by
    rw [step.present]
    exact inv.slot
  counted := counted

variable (present : s.present d = true)
include present

theorem mem_asserting_iff (bound : pin < pciNumPins) :
    (d, pin) ∈ asserting topo s ↔ driven (s.dev d) pin = true := by
  rw [mem_asserting]
  have plugged := PciTopology.mem_devices (inv.slot d present)
  exact ⟨fun member => member.2.2, fun drives => ⟨⟨plugged, bound⟩, present, drives⟩⟩

/-- The pins asserted after one pin of `d` was set, its interrupts being disabled or not. -/
theorem asserting_setPin (bound : pin < pciNumPins) (step : IrqStep d s t)
    (pins : ∀ other, other < pciNumPins → pciIrqState (t.dev d) other =
      if other = pin then (level : Int) else pciIrqState (s.dev d) other) :
    asserting topo t =
      if pciIrqDisabled (s.dev d) then asserting topo s
      else if level = 1 then insert (d, pin) (asserting topo s)
      else (asserting topo s).erase (d, pin) := by
  have plugged := PciTopology.mem_devices (inv.slot d present)
  have disabled := step.own.disabled
  have sameDriven : ∀ other, other < pciNumPins → other ≠ pin →
      driven (t.dev d) other = driven (s.dev d) other := by
    intro other otherBound different
    rw [driven, driven, pins other otherBound, if_neg different, disabled]
  have pinDriven : driven (t.dev d) pin = (decide (level = 1) && !pciIrqDisabled (s.dev d)) := by
    have one : ((level : Int) == 1) = decide (level = 1) := by
      rw [Bool.beq_eq_decide_eq]
      exact decide_eq_decide.mpr (by omega)
    rw [driven, pins pin bound, if_pos rfl, disabled, one]
  split
  · next masked =>
    apply asserting_congr step.present
    intro e other _ _
    by_cases same : e = d
    · subst same
      rw [driven, driven, disabled, masked, Bool.not_true, Bool.and_false, Bool.and_false]
    · rw [step.others e same]
  · next unmasked =>
    rw [Bool.not_eq_true] at unmasked
    rw [unmasked, Bool.not_false, Bool.and_true] at pinDriven
    have memberOther : ∀ p : Nat × Nat, p ≠ (d, pin) →
        (p ∈ asserting topo t ↔ p ∈ asserting topo s) := by
      grind [IrqStep, mem_asserting]
    have memberPin : (d, pin) ∈ asserting topo t ↔ level = 1 := by
      rw [mem_asserting, step.present, pinDriven, decide_eq_true_eq]
      exact ⟨fun member => member.2.2, fun high => ⟨⟨plugged, bound⟩, present, high⟩⟩
    split
    · grind
    · grind

theorem setDev_step (pinBound : pin < pciNumPins) (levelBound : level ≤ 1) :
    IrqStep d s (s.setDev d (pciUpdateIrqStatus (pciSetIrqState (s.dev d) pin level))) ∧
      ∀ other, other < pciNumPins →
        pciIrqState ((s.setDev d (pciUpdateIrqStatus
            (pciSetIrqState (s.dev d) pin level))).dev d) other =
          if other = pin then (level : Int) else pciIrqState (s.dev d) other := by
  obtain ⟨only, pins⟩ := setPin_spec (inv.small d present) pinBound levelBound
  rw [s.setDev_self]
  refine ⟨⟨rfl, fun e other => s.setDev_of_ne other _, ?_⟩, pins⟩
  rw [s.setDev_self]
  exact only

theorem pciIrqHandler (ran : Pci.pciIrqHandler topo s d pin level = .ok t) :
    LineInv topo t ∧ IrqStep d s t ∧
      ∀ other, other < pciNumPins → pciIrqState (t.dev d) other =
        if other = pin then (level : Int) else pciIrqState (s.dev d) other := by
  unfold Pci.pciIrqHandler at ran
  split at ran
  · cases ran
  next bounds =>
  obtain ⟨pinBound, levelBound⟩ := not_not.mp bounds
  dsimp only at ran
  split at ran
  · -- The pin is at this level already.
    next unchanged =>
    cases ran
    refine ⟨inv, ⟨rfl, fun _ _ => rfl, .refl (inv.small d present)⟩, ?_⟩
    intro other _
    split
    · next same =>
      subst same
      omega
    · rfl
  next changed =>
  obtain ⟨step, pins⟩ := inv.setDev_step present pinBound levelBound
  have after := inv.asserting_setPin present pinBound step pins
  have unmasked := step.own.disabled
  have before : Counted topo (s.setDev d (pciUpdateIrqStatus (pciSetIrqState (s.dev d) pin level)))
      (asserting topo s) := inv.counted.congr rfl rfl rfl
  generalize s.setDev d (pciUpdateIrqStatus (pciSetIrqState (s.dev d) pin level)) = middle at *
  rw [unmasked] at ran
  split at ran
  · next masked =>
    cases ran
    rw [if_pos masked] at after
    exact ⟨inv.of_step step (after ▸ before), step, pins⟩
  · next masked =>
    have lines := pciChangeIrqLevel_linesOnly ran
    have sameSet : asserting topo t = asserting topo middle :=
      asserting_congr lines.present fun e other _ _ => by rw [lines.dev]
    have stepAll : IrqStep d s t := by
      refine ⟨lines.present.trans step.present, ?_, ?_⟩
      · rw [lines.dev]
        exact step.others
      · rw [lines.dev]
        exact step.own
    rw [if_neg masked] at after
    have driven : (d, pin) ∈ asserting topo s ↔ pciIrqState (s.dev d) pin = 1 := by
      rw [inv.mem_asserting_iff present pinBound, Pci.driven, Bool.eq_false_of_not_eq_true masked,
        Bool.not_false, Bool.and_true, beq_iff_eq]
    refine ⟨inv.of_step stepAll ?_, stepAll, lines.dev ▸ pins⟩
    rw [sameSet, after]
    rcases pciIrqState_bounds (s.dev d) pin with low | high
    · have raised : level = 1 := by omega
      rw [low, raised] at ran
      rw [if_pos raised]
      exact before.insert (fun member => by rw [driven.mp member] at low; omega) ran
    · have lowered : level = 0 := by omega
      rw [high, lowered] at ran
      obtain ⟨other, ranErase, counted⟩ := before.erase (driven.mpr high)
      rw [if_neg (by omega)]
      cases ran.symm.trans ranErase
      exact counted

theorem pciIrqHandler_lower (bound : pin < pciNumPins) :
    ∃ t, Pci.pciIrqHandler topo s d pin 0 = .ok t := by
  unfold Pci.pciIrqHandler
  rw [if_neg (not_not.mpr ⟨bound, by omega⟩)]
  dsimp only
  split
  · exact ⟨s, rfl⟩
  next changed =>
  have high : pciIrqState (s.dev d) pin = 1 := by
    rcases pciIrqState_bounds (s.dev d) pin with low | high
    · omega
    · exact high
  have step : IrqStep d s (s.setDev d (pciUpdateIrqStatus (pciSetIrqState (s.dev d) pin 0))) :=
    (inv.setDev_step present bound (by omega)).1
  rw [step.own.disabled]
  split
  · exact ⟨_, rfl⟩
  · next masked =>
    have counted : Counted topo (s.setDev d (pciUpdateIrqStatus (pciSetIrqState (s.dev d) pin 0)))
        (asserting topo s) := inv.counted.congr rfl rfl rfl
    have member : (d, pin) ∈ asserting topo s := by
      rw [inv.mem_asserting_iff present bound, Pci.driven, high,
        Bool.eq_false_of_not_eq_true masked]
      rfl
    obtain ⟨t, ran, -⟩ := counted.erase member
    rw [high]
    exact ⟨t, ran⟩

/-- `pci_device_deassert_intx` returns, with all pins of the function low. -/
theorem pciDeviceDeassertIntx :
    ∃ t, Pci.pciDeviceDeassertIntx topo s d = .ok t ∧ LineInv topo t ∧ IrqStep d s t ∧
      (t.dev d).irqState = 0 := by
  have loop : ∃ t, Pci.pciDeviceDeassertIntx topo s d = .ok t ∧
      (LineInv topo t ∧ IrqStep d s t) ∧
      (∀ pin ∈ List.range pciNumPins, pin < pciNumPins → pciIrqState (t.dev d) pin = 0) ∧
      ∀ pin, (pin < pciNumPins → pciIrqState (s.dev d) pin = 0) →
        pin < pciNumPins → pciIrqState (t.dev d) pin = 0 := by
    apply forEach_establishes (fun t => LineInv topo t ∧ IrqStep d s t)
      (fun pin t => pin < pciNumPins → pciIrqState (t.dev d) pin = 0) _
      ⟨inv, rfl, fun _ _ => rfl, .refl (inv.small d present)⟩
    intro middle pin member kept
    have bound := List.mem_range.mp member
    have there : middle.present d = true := kept.2.present ▸ present
    obtain ⟨t, ran⟩ := kept.1.pciIrqHandler_lower there bound
    obtain ⟨after, step, pins⟩ := kept.1.pciIrqHandler there ran
    refine ⟨t, ran, ⟨after, kept.2.trans step⟩, ?_, ?_⟩
    · intro _
      rw [pins pin bound, if_pos rfl]
      rfl
    · grind
  obtain ⟨t, ran, ⟨kept, step⟩, low, -⟩ := loop
  refine ⟨t, ran, kept, step, irqState_eq_zero _ step.own.small ?_⟩
  intro pin
  exact Int.ofNat_eq_zero.mp (low pin (List.mem_range.mpr pin.isLt) pin.isLt)

end

end LineInv

/-! ### Toggling `INTX_DISABLE` -/

/-- The asserted pins of `d` among `rest`. -/
def pinsOf (d : Nat) (dev : PCIDevice) (rest : List Nat) : Finset (Nat × Nat) :=
  ((rest.filter fun pin => pciIrqState dev pin == 1).map fun pin => (d, pin)).toFinset

theorem mem_pinsOf : p ∈ pinsOf d dev rest ↔ p.1 = d ∧ p.2 ∈ rest ∧ pciIrqState dev p.2 = 1 := by
  grind [pinsOf, List.mem_toFinset]

theorem pinsOf_cons_low (rest : List Nat) (low : pciIrqState dev pin = 0) :
    pinsOf d dev (pin :: rest) = pinsOf d dev rest := by
  unfold pinsOf
  rw [List.filter_cons_of_neg (by rw [low]; decide)]

theorem pinsOf_cons_high (rest : List Nat) (high : pciIrqState dev pin = 1) :
    pinsOf d dev (pin :: rest) = insert (d, pin) (pinsOf d dev rest) := by
  unfold pinsOf
  rw [List.filter_cons_of_pos (by rw [high]; decide), List.map_cons, List.toFinset_cons]

/-- The state of the loop of `pci_update_irq_disabled` with the pins `rest` to come: those of
the other pins of `d` are counted as they will be. -/
structure Toggling (topo : PciTopology) (start : PciState) (d : Nat) (disabled : Bool)
    (rest : List Nat) (s : PciState) : Prop where
  nodup : rest.Nodup
  lines : LinesOnly start s
  counted : Counted topo s
    (if disabled then asserting topo start ∪ pinsOf d (start.dev d) rest
    else asserting topo start \ pinsOf d (start.dev d) rest)

/-- A turn counts the pin as it will be: disabling takes it out, enabling puts it in. -/
theorem Toggling.next {start : PciState} {disabled : Bool}
    (asserted : pciIrqState (start.dev d) pin = 1 →
      ((d, pin) ∈ asserting topo start ↔ disabled = false))
    (before : Toggling topo start d disabled (pin :: rest) s)
    (ran : pciChangeIrqLevel topo s d pin
      (if disabled then -pciIrqState (s.dev d) pin else pciIrqState (s.dev d) pin) = .ok t) :
    Toggling topo start d disabled rest t := by
  have lines := pciChangeIrqLevel_linesOnly ran
  have counted := before.counted
  refine ⟨before.nodup.of_cons,
    ⟨lines.dev.trans before.lines.dev, lines.present.trans before.lines.present⟩, ?_⟩
  rw [before.lines.dev] at ran
  rcases pciIrqState_bounds (start.dev d) pin with low | high
  · rw [pinsOf_cons_low rest low] at counted
    rw [low, Int.neg_zero, ite_self] at ran
    exact counted.zero ran
  · rw [pinsOf_cons_high rest high] at counted
    rw [high] at ran
    have notRest : (d, pin) ∉ pinsOf d (start.dev d) rest :=
      fun member => (List.nodup_cons.mp before.nodup).1 (mem_pinsOf.mp member).2.1
    cases disabled with
    | true =>
      simp only [if_true] at counted ran ⊢
      have notAsserting : (d, pin) ∉ asserting topo start := fun member =>
        Bool.noConfusion ((asserted high).mp member)
      obtain ⟨other, ranErase, erased⟩ :=
        counted.erase (Finset.mem_union_right _ (Finset.mem_insert_self (d, pin) _))
      cases ran.symm.trans ranErase
      rw [Finset.union_insert, Finset.erase_insert] at erased
      · exact erased
      · rw [Finset.mem_union]
        exact fun member => member.elim notAsserting notRest
    | false =>
      simp only [Bool.false_eq_true, if_false] at counted ran ⊢
      have inserted := counted.insert
        (fun member => (Finset.mem_sdiff.mp member).2 (Finset.mem_insert_self _ _)) ran
      rw [Finset.sdiff_insert, Finset.insert_erase] at inserted
      · exact inserted
      · exact Finset.mem_sdiff.mpr ⟨(asserted high).mpr rfl, notRest⟩

theorem LineInv.pciUpdateIrqDisabled (inv : LineInv topo s) (present : s.present d = true)
    (irqState : dev.irqState = (s.dev d).irqState)
    (ran : Pci.pciUpdateIrqDisabled topo (s.setDev d dev) d (pciIrqDisabled (s.dev d)) = .ok t) :
    LinesOnly (s.setDev d dev) t ∧ LineInv topo t := by
  have own := s.setDev_self d dev
  have others := fun e other => s.setDev_of_ne (e := e) (d := d) other dev
  have counted : Counted topo (s.setDev d dev) (asserting topo s) :=
    inv.counted.congr rfl rfl rfl
  have pinState : ∀ pin, pciIrqState dev pin = pciIrqState (s.dev d) pin := by
    intro pin
    rw [pciIrqState, pciIrqState, irqState]
  have plugged := PciTopology.mem_devices (inv.slot d present)
  have there : (s.setDev d dev).present = s.present := rfl
  generalize s.setDev d dev = start at *
  have finish : ∀ u, LinesOnly start u → Counted topo u (asserting topo start) →
      LinesOnly start u ∧ LineInv topo u := by
    intro u lines countedEnd
    refine ⟨lines, ?_, ?_, ?_⟩
    · intro e presentEnd
      rw [lines.present, there] at presentEnd
      rw [lines.dev]
      by_cases same : e = d
      · subst same
        rw [own, irqState]
        exact inv.small e present
      · rw [others e same]
        exact inv.small e presentEnd
    · rw [lines.present, there]
      exact inv.slot
    · rw [asserting_congr lines.present fun e pin _ _ => by rw [lines.dev]]
      exact countedEnd
  unfold Pci.pciUpdateIrqDisabled at ran
  dsimp only at ran
  rw [own] at ran
  split at ran
  · next same =>
    cases ran
    apply finish t ⟨rfl, rfl⟩
    have sameSet : asserting topo t = asserting topo s := by
      grind [driven, asserting_congr]
    rw [sameSet]
    exact counted
  · next changed =>
    have asserted : ∀ pin < pciNumPins, pciIrqState (start.dev d) pin = 1 →
        ((d, pin) ∈ asserting topo start ↔ pciIrqDisabled dev = false) := by
      intro pin bound high
      rw [own] at high
      rw [mem_asserting, there, own, driven, high]
      simp [plugged, bound, present]
    have sets : asserting topo s = if pciIrqDisabled dev then
        asserting topo start ∪ pinsOf d (start.dev d) (List.range pciNumPins)
        else asserting topo start \ pinsOf d (start.dev d) (List.range pciNumPins) := by
      grind [mem_asserting, mem_pinsOf, driven]
    have final : (∀ pin ∈ ([] : List Nat), pin < pciNumPins) ∧
        Toggling topo start d (pciIrqDisabled dev) [] t := by
      refine forEach_suffix (fun rest u => (∀ pin ∈ rest, pin < pciNumPins) ∧
        Toggling topo start d (pciIrqDisabled dev) rest u) ?_
        ⟨fun pin => List.mem_range.mp, List.nodup_range, ⟨rfl, rfl⟩, sets ▸ counted⟩ ran
      intro pin rest u v before step
      exact ⟨fun other member => before.1 other (.tail _ member),
        before.2.next (asserted pin (before.1 pin List.mem_cons_self)) step⟩
    apply finish t final.2.lines
    simpa [pinsOf] using final.2.counted

end QemuGzvm.Pci
