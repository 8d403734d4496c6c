import QemuGzvm.Library.CheckedArray
import QemuGzvm.Library.Transition

/-!
Contract: the INTx interrupt of a virtio-pci device (`virtio_set_isr`, `virtio_irq` and
`virtio_notify` of `hw/virtio/virtio.c`, `virtio_pci_notify` and `virtio_pci_isr_read` of
`hw/virtio/virtio-pci.c`, the interrupt lines and `pci_default_write_config` of
`hw/pci/pci.c`).

Owns:
- the configuration space with its write masks, the recorded level of each pin and the
  bus lines it drives;
- notification through the irqfd, the bus line or MSI-X;
- runs of notifications, ISR reads and configuration writes of a device whose INTx is
  an irqfd, and `Stranded`, the state they must not reach.

The line of such a device is never raised, so that clearing `INTX_DISABLE` has no
recorded level to present again: what was notified while it was set is lost.
-/

namespace QemuGzvm.Virtio

open QemuGzvm.Library

/-! ### PCI -/

def pciCommand : Nat := 0x04

def pciCommandIntxDisable : UInt16 := 0x400

def pciStatus : Nat := 0x06

def pciStatusInterrupt : UInt8 := 0x08

def pciInterruptPin : Nat := 0x3d

def pciNumPins : Nat := 4

/-- The part of `PCIDevice` that interrupts depend on, with the bus its pins lead to. -/
structure PCIDevice where
  config : List UInt8
  wmask : List UInt8
  w1cmask : List UInt8
  /-- The level recorded for each pin. -/
  irqState : UInt8 := 0
  /-- The bus line a pin leads to, through the bridges in between. -/
  mapIrq : Nat → Nat := id
  irqCount : Nat → Int := fun _ => 0

def pciGetWord (config : List UInt8) (offset : Nat) : UInt16 :=
  (config.getD offset 0).toUInt16 ||| ((config.getD (offset + 1) 0).toUInt16 <<< 8)

def pciIrqDisabled (d : PCIDevice) : Bool :=
  pciGetWord d.config pciCommand &&& pciCommandIntxDisable != 0

def pciIrqState (d : PCIDevice) (irqNum : Nat) : Int :=
  ((d.irqState >>> UInt8.ofNat irqNum) &&& 1).toNat

def pciSetIrqState (d : PCIDevice) (irqNum level : Nat) : PCIDevice :=
  { d with
    irqState := (d.irqState &&& ~~~(1 <<< UInt8.ofNat irqNum)) |||
      (UInt8.ofNat level <<< UInt8.ofNat irqNum) }

/-- The bus line is up as long as its count is not zero. -/
def pciChangeIrqLevel (d : PCIDevice) (irqNum : Nat) (change : Int) : PCIDevice :=
  { d with
    irqCount := Function.update d.irqCount (d.mapIrq irqNum)
      (d.irqCount (d.mapIrq irqNum) + change) }

def pciUpdateIrqStatus (d : PCIDevice) : PCIDevice :=
  let status := d.config.getD pciStatus 0
  { d with
    config := d.config.set pciStatus
      (if d.irqState ≠ 0 then status ||| pciStatusInterrupt
      else status &&& ~~~pciStatusInterrupt) }

def pciIrqHandler (d : PCIDevice) (irqNum level : Nat) : Checked PCIDevice :=
  if ¬ (irqNum < pciNumPins ∧ level ≤ 1) then .error .assertion
  else
    let change := (level : Int) - pciIrqState d irqNum
    if change = 0 then .ok d
    else
      let d := pciUpdateIrqStatus (pciSetIrqState d irqNum level)
      if pciIrqDisabled d then .ok d else .ok (pciChangeIrqLevel d irqNum change)

def pciSetIrq (d : PCIDevice) (level : Nat) : Checked PCIDevice :=
  let pin := (d.config.getD pciInterruptPin 0).toNat
  if pin = 0 then .error .assertion else pciIrqHandler d (pin - 1) level

def pciUpdateIrqDisabled (d : PCIDevice) (wasIrqDisabled : Bool) : PCIDevice :=
  let disabled := pciIrqDisabled d
  if disabled = wasIrqDisabled then d
  else
    (List.range pciNumPins).foldl
      (fun d pin =>
        let state := pciIrqState d pin
        pciChangeIrqLevel d pin (if disabled then -state else state)) d

/-- The loop over the bytes of a write, `left` of them from `addr` on. -/
def writeConfigBytes : Nat → Nat → UInt32 → PCIDevice → Checked PCIDevice
  | 0, _, _, d => .ok d
  | left + 1, addr, val, d =>
    let wmask := d.wmask.getD addr 0
    let w1cmask := d.w1cmask.getD addr 0
    let old := d.config.getD addr 0
    if wmask &&& w1cmask ≠ 0 then .error .assertion
    else
      let new := (old &&& ~~~wmask) ||| (val.toUInt8 &&& wmask)
      let new := new &&& ~~~(val.toUInt8 &&& w1cmask)
      writeConfigBytes left (addr + 1) (val >>> 8) { d with config := d.config.set addr new }

/-- Left out are the power state, the mappings, bus mastering and what MSI, MSI-X and
SR-IOV do with the write. -/
def pciDefaultWriteConfig (d : PCIDevice) (addr : Nat) (valIn : UInt32) (l : Nat) :
    Checked PCIDevice :=
  let wasIrqDisabled := pciIrqDisabled d
  if d.config.length < addr + l then .error .assertion
  else
    (writeConfigBytes l addr valIn d).bind fun d =>
      if addr < pciCommand + 2 ∧ pciCommand < addr + l then
        .ok (pciUpdateIrqDisabled d wasIrqDisabled)
      else .ok d

/-! ### The device -/

structure VirtIOPCIProxy where
  pciDev : PCIDevice
  isr : UInt8 := 0
  /-- `virtio_device_disabled` -/
  disabled : Bool := false
  msixEnabled : Bool := false
  intxIrqfd : Bool := false
  /-- How often `intx_notifier` was signalled. -/
  intxSignals : Nat := 0
  /-- The vectors passed to `msix_notify`. -/
  msixVectors : List Nat := []
  /-- `virtio_pci_intx_update_bh` is scheduled. -/
  bhScheduled : Bool := false

def virtioNoVector : Nat := 0xffff

def virtioSetIsr (proxy : VirtIOPCIProxy) (value : UInt8) : VirtIOPCIProxy :=
  if proxy.isr &&& value ≠ value then { proxy with isr := proxy.isr ||| value } else proxy

def virtioPciIntxUpdate (proxy : VirtIOPCIProxy) : Checked VirtIOPCIProxy :=
  if proxy.intxIrqfd then .ok proxy
  else
    (pciSetIrq proxy.pciDev (proxy.isr &&& 1).toNat).bind fun pciDev => .ok { proxy with pciDev }

def virtioPciNotify (proxy : VirtIOPCIProxy) (vector : Nat) (bqlLocked : Bool) :
    Checked VirtIOPCIProxy :=
  if proxy.msixEnabled then
    if vector ≠ virtioNoVector then
      .ok { proxy with msixVectors := proxy.msixVectors ++ [vector] }
    else .ok proxy
  else if proxy.intxIrqfd then
    if !pciIrqDisabled proxy.pciDev then .ok { proxy with intxSignals := proxy.intxSignals + 1 }
    else .ok proxy
  else if !bqlLocked then .ok { proxy with bhScheduled := true }
  else virtioPciIntxUpdate proxy

def virtioNotifyVector (proxy : VirtIOPCIProxy) (vector : Nat) (bqlLocked : Bool) :
    Checked VirtIOPCIProxy :=
  if proxy.disabled then .ok proxy else virtioPciNotify proxy vector bqlLocked

def virtioIrq (proxy : VirtIOPCIProxy) (vector : Nat) (bqlLocked : Bool) :
    Checked VirtIOPCIProxy :=
  virtioNotifyVector (virtioSetIsr proxy 1) vector bqlLocked

/-- `should` is what `virtio_should_notify` returns. -/
def virtioNotify (proxy : VirtIOPCIProxy) (should : Bool) (vector : Nat) (bqlLocked : Bool) :
    Checked VirtIOPCIProxy :=
  if should then virtioIrq proxy vector bqlLocked else .ok proxy

def virtioPciIsrRead (proxy : VirtIOPCIProxy) : Checked (UInt8 × VirtIOPCIProxy) :=
  (pciSetIrq proxy.pciDev 0).bind fun pciDev => .ok (proxy.isr, { proxy with isr := 0, pciDev })

/-! ### Runs -/

/-- A device, and how often its irqfd had been signalled after the last step that left
ISR zero. -/
structure IntxRun where
  proxy : VirtIOPCIProxy
  zeroSignals : Nat := 0

inductive IntxOp where
  | notify (should : Bool) (vector : Nat) (bqlLocked : Bool)
  | isrRead
  | writeConfig (addr : Nat) (val : UInt32) (l : Nat)

def IntxOp.act (proxy : VirtIOPCIProxy) : IntxOp → Checked VirtIOPCIProxy
  | .notify should vector bqlLocked => virtioNotify proxy should vector bqlLocked
  | .isrRead => (virtioPciIsrRead proxy).bind fun (_, proxy) => .ok proxy
  | .writeConfig addr val l =>
    (pciDefaultWriteConfig proxy.pciDev addr val l).bind fun pciDev => .ok { proxy with pciDev }

def IntxRun.next (run : IntxRun) (op : IntxOp) : Option IntxRun :=
  (op.act run.proxy).toOption.map fun proxy =>
    { proxy, zeroSignals := if proxy.isr = 0 then proxy.intxSignals else run.zeroSignals }

/-- A device whose INTx irqfd was just set up, with MSI-X off. -/
structure IntxConfig where
  pciDev : PCIDevice

def IntxConfig.start (config : IntxConfig) : IntxRun :=
  { proxy := { pciDev := config.pciDev, intxIrqfd := true } }

def IntxConfig.system (config : IntxConfig) : LabelledSystem IntxRun IntxOp :=
  .ofNext config.start IntxRun.next

/-- An interrupt waits, unmasked, and was not signalled since ISR was zero. -/
def Stranded (run : IntxRun) : Prop :=
  run.proxy.isr ≠ 0 ∧ pciIrqDisabled run.proxy.pciDev = false ∧
    ¬ run.zeroSignals < run.proxy.intxSignals

instance (run : IntxRun) : Decidable (Stranded run) :=
  inferInstanceAs (Decidable (_ ∧ _ ∧ ¬ _))

/-- The step does not clear `INTX_DISABLE` while an interrupt waits that was notified
only while it was set. -/
def UnmaskSafe (run : IntxRun) (op : IntxOp) : Prop :=
  ∀ after ∈ run.next op, pciIrqDisabled run.proxy.pciDev = true →
    pciIrqDisabled after.proxy.pciDev = false →
    run.proxy.isr = 0 ∨ run.zeroSignals < run.proxy.intxSignals

instance (run : IntxRun) (op : IntxOp) : Decidable (UnmaskSafe run op) :=
  inferInstanceAs (Decidable (∀ _ ∈ run.next op, _))

/-! ### What a step does -/

/-- Notifications of such a device go to its irqfd. -/
structure ByIrqfd (proxy : VirtIOPCIProxy) : Prop where
  enabled : proxy.disabled = false
  msixOff : proxy.msixEnabled = false
  irqfd : proxy.intxIrqfd = true

theorem virtioSetIsr_one (proxy : VirtIOPCIProxy) :
    ∃ isr, isr ≠ 0 ∧ virtioSetIsr proxy 1 = { proxy with isr } := by
  rw [virtioSetIsr]
  split
  · refine ⟨proxy.isr ||| 1, ?_, rfl⟩
    simp
  · next set =>
    refine ⟨proxy.isr, ?_, rfl⟩
    intro zero
    rw [zero] at set
    exact set (by decide)

theorem pciIrqDisabled_updateIrqStatus (d : PCIDevice) :
    pciIrqDisabled (pciUpdateIrqStatus d) = pciIrqDisabled d := by
  simp [pciIrqDisabled, pciGetWord, pciUpdateIrqStatus, pciCommand, pciStatus,
    List.getD_eq_getElem?_getD]

theorem pciIrqDisabled_setIrq {d after : PCIDevice} {level : Nat}
    (run : pciSetIrq d level = .ok after) : pciIrqDisabled after = pciIrqDisabled d := by
  have untouched (irqNum : Nat) :
      pciIrqDisabled (pciUpdateIrqStatus (pciSetIrqState d irqNum level)) = pciIrqDisabled d :=
    pciIrqDisabled_updateIrqStatus _
  simp only [pciSetIrq, pciIrqHandler] at run
  split at run
  · cases run
  · split at run
    · cases run
    · split at run
      · cases run
        rfl
      · split at run <;> cases run <;> exact untouched _

variable {proxy : VirtIOPCIProxy} {after run : IntxRun} {op : IntxOp}

/-- A notification leaves an interrupt waiting, signalled unless it is masked. -/
theorem virtioIrq_spec {after : VirtIOPCIProxy} {vector : Nat} {bqlLocked : Bool}
    (byIrqfd : ByIrqfd proxy) (run : virtioIrq proxy vector bqlLocked = .ok after) :
    ByIrqfd after ∧ after.isr ≠ 0 ∧ after.pciDev = proxy.pciDev ∧
      after.intxSignals =
        if pciIrqDisabled proxy.pciDev then proxy.intxSignals else proxy.intxSignals + 1 := by
  obtain ⟨isr, nonzero, set⟩ := virtioSetIsr_one proxy
  rw [virtioIrq, set, virtioNotifyVector, virtioPciNotify] at run
  simp only [byIrqfd.enabled, byIrqfd.msixOff, byIrqfd.irqfd, Bool.false_eq_true, if_false,
    if_true] at run
  cases masked : pciIrqDisabled proxy.pciDev <;>
    · simp only [masked, Bool.not_true, Bool.not_false, Bool.false_eq_true, if_true,
        if_false] at run
      cases run
      exact ⟨⟨rfl, rfl, rfl⟩, nonzero, rfl, rfl⟩

theorem virtioPciIsrRead_spec {after : VirtIOPCIProxy} {value : UInt8} (byIrqfd : ByIrqfd proxy)
    (run : virtioPciIsrRead proxy = .ok (value, after)) :
    ByIrqfd after ∧ after.isr = 0 ∧ value = proxy.isr ∧
      pciIrqDisabled after.pciDev = pciIrqDisabled proxy.pciDev ∧
      after.intxSignals = proxy.intxSignals := by
  obtain ⟨pciDev, lowered, eq⟩ := bind_eq_ok.mp run
  cases eq
  exact ⟨⟨byIrqfd.enabled, byIrqfd.msixOff, byIrqfd.irqfd⟩, rfl, rfl,
    pciIrqDisabled_setIrq lowered, rfl⟩

/-! ### Whole runs -/

/-- Signals are only ever added, and none of the waiting interrupts is stranded. -/
structure IntxInv (run : IntxRun) : Prop where
  byIrqfd : ByIrqfd run.proxy
  signals : run.zeroSignals ≤ run.proxy.intxSignals
  safe : ¬ Stranded run

theorem IntxConfig.start_inv (config : IntxConfig) : IntxInv config.start where
  byIrqfd := ⟨rfl, rfl, rfl⟩
  signals := Nat.le_refl 0
  safe := fun stranded => stranded.1 rfl

theorem IntxRun.next_eq_some (taken : run.next op = some after) :
    op.act run.proxy = .ok after.proxy ∧
      after.zeroSignals =
        if after.proxy.isr = 0 then after.proxy.intxSignals else run.zeroSignals := by
  obtain ⟨proxy, acted, eq⟩ := Option.map_eq_some_iff.mp taken
  cases eq
  exact ⟨toOption_eq_some.mp acted, rfl⟩

/-- What a step leaves behind: the steps that leave an interrupt waiting either signal
it, if it is not masked, or are configuration writes, which keep ISR and the signals. -/
inductive IntxStep (run after : IntxRun) : Prop
  | cleared (isr : after.proxy.isr = 0) (kept : after.proxy.intxSignals = run.proxy.intxSignals)
      (mask : pciIrqDisabled after.proxy.pciDev = pciIrqDisabled run.proxy.pciDev)
  | notified (mask : pciIrqDisabled after.proxy.pciDev = pciIrqDisabled run.proxy.pciDev)
      (isr : after.proxy.isr ≠ 0)
      (signals : after.proxy.intxSignals =
        if pciIrqDisabled run.proxy.pciDev then run.proxy.intxSignals
        else run.proxy.intxSignals + 1)
  | quiet (isr : after.proxy.isr = run.proxy.isr)
      (kept : after.proxy.intxSignals = run.proxy.intxSignals)

theorem next_intxStep (byIrqfd : ByIrqfd run.proxy) (taken : run.next op = some after) :
    ByIrqfd after.proxy ∧ IntxStep run after := by
  obtain ⟨acted, -⟩ := IntxRun.next_eq_some taken
  cases op with
  | notify should vector bqlLocked =>
    cases should with
    | false =>
      have same : run.proxy = after.proxy := Except.ok.inj acted
      rw [← same]
      exact ⟨byIrqfd, .quiet (by rw [same]) (by rw [same])⟩
    | true =>
      obtain ⟨kept, isr, pciDev, signals⟩ := virtioIrq_spec byIrqfd acted
      exact ⟨kept, .notified (by rw [pciDev]) isr signals⟩
  | isrRead =>
    obtain ⟨⟨value, proxy⟩, read, eq⟩ := bind_eq_ok.mp acted
    cases eq
    obtain ⟨kept, isr, -, mask, signals⟩ := virtioPciIsrRead_spec byIrqfd read
    exact ⟨kept, .cleared isr signals mask⟩
  | writeConfig addr val l =>
    obtain ⟨pciDev, -, eq⟩ := bind_eq_ok.mp acted
    have same := Except.ok.inj eq
    rw [← same]
    exact ⟨⟨byIrqfd.enabled, byIrqfd.msixOff, byIrqfd.irqfd⟩,
      .quiet (by rw [← same]) (by rw [← same])⟩

/-- From a state with no stranded interrupt a step strands one exactly when it is not
safe. -/
theorem IntxInv.stranded_iff (inv : IntxInv run) (taken : run.next op = some after) :
    ¬ Stranded after ↔ UnmaskSafe run op := by
  obtain ⟨-, zero⟩ := IntxRun.next_eq_some taken
  have signals := inv.signals
  rw [UnmaskSafe, taken]
  simp only [Option.mem_def, Option.some.injEq, forall_eq']
  cases (next_intxStep inv.byIrqfd taken).2 with
  | cleared isr kept mask =>
    constructor
    · intro _ masked unmasked
      rw [mask, masked] at unmasked
      cases unmasked
    · intro _ stranded
      exact stranded.1 isr
  | notified mask isr raised =>
    constructor
    · intro _ masked unmasked
      rw [mask, masked] at unmasked
      cases unmasked
    · intro _ ⟨_, unmasked, silent⟩
      rw [mask] at unmasked
      rw [unmasked, if_neg Bool.false_ne_true] at raised
      rw [if_neg isr] at zero
      omega
  | quiet isr kept =>
    -- The signals stay, so only the mask can strand what waits.
    rw [isr] at zero
    constructor
    · intro fine masked unmasked
      by_contra waits
      push Not at waits
      rw [if_neg waits.1] at zero
      refine fine ⟨?_, unmasked, ?_⟩
      · rw [isr]
        exact waits.1
      · omega
    · intro safe ⟨waits, unmasked, silent⟩
      rw [isr] at waits
      rw [if_neg waits] at zero
      rw [zero, kept] at silent
      cases masked : pciIrqDisabled run.proxy.pciDev with
      | false => exact inv.safe ⟨waits, masked, silent⟩
      | true =>
        grind

theorem IntxInv.next (inv : IntxInv run) (safe : UnmaskSafe run op)
    (taken : run.next op = some after) : IntxInv after where
  byIrqfd := (next_intxStep inv.byIrqfd taken).1
  signals := by
    have signals := inv.signals
    rw [(IntxRun.next_eq_some taken).2]
    cases (next_intxStep inv.byIrqfd taken).2 <;> split <;> grind
  safe := (inv.stranded_iff taken).mpr safe

/-- In a run that never clears `INTX_DISABLE` over an interrupt notified only while it
was set, an interrupt that waits unmasked was signalled since ISR was last zero; and
the first step outside that condition strands one. -/
theorem intx_never_stranded_iff (config : IntxConfig) (run : IntxRun)
    (reached : config.system.ReachedBy UnmaskSafe run) :
    ¬ Stranded run ∧
      ∀ op after, run.next op = some after → (¬ Stranded after ↔ UnmaskSafe run op) := by
  have inv : IntxInv run := by
    apply reached.invariant IntxInv
    · intro start initial
      cases initial
      exact config.start_inv
    · intro before op after inv safe taken
      exact inv.next safe taken
  exact ⟨inv.safe, fun _ _ taken => inv.stranded_iff taken⟩

def intxExample : IntxConfig where
  pciDev := {
    config := List.replicate 0x3d 0 ++ [1, 0, 0]
    wmask := List.replicate 4 0 ++ [0x07, 0x04] ++ List.replicate 0x3a 0
    w1cmask := List.replicate 0x40 0 }

/-- An interrupt masked after it was signalled and unmasked again is not stranded. -/
theorem intx_never_stranded_iff_signalled :
    ∃ run, intxExample.system.ReachedBy UnmaskSafe run ∧ run.proxy.isr = 1 ∧
      pciIrqDisabled run.proxy.pciDev = false ∧ ¬ Stranded run := by
  obtain ⟨run, reached, isr, unmasked⟩ : ∃ run, intxExample.system.ReachedBy UnmaskSafe run ∧
      run.proxy.isr = 1 ∧ pciIrqDisabled run.proxy.pciDev = false :=
    LabelledSystem.exists_reachedBy
      [.notify true 0 true, .writeConfig 4 0x400 2, .writeConfig 4 0 2] (by decide +kernel)
  exact ⟨run, reached, isr, unmasked, (intx_never_stranded_iff intxExample run reached).1⟩

/-- `INTX_DISABLE` set, a notification, `INTX_DISABLE` cleared: ISR is set, interrupts
are enabled and the irqfd was never signalled. -/
theorem intx_stranded_by_unmask :
    ∃ run, intxExample.system.ReachedBy (fun _ _ => True) run ∧ run.proxy.isr = 1 ∧
      run.proxy.intxSignals = 0 ∧ Stranded run :=
  LabelledSystem.exists_reachedBy
    [.writeConfig 4 0x400 2, .notify true 0 true, .writeConfig 4 0 2] (by decide +kernel)

end QemuGzvm.Virtio
