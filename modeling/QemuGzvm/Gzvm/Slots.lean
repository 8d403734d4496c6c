import QemuGzvm.Memory.Region

/-!
Contract: the GZVM memory slot table and its memory listener
(`accel/gzvm/gzvm-mem.c`, `gzvm_signal_update_regions` of
`accel/gzvm/gzvm-signal.c`).

Owns:
- `GZVMState`: the slot array, the array of slot ids sorted by start address,
  the two counters and the two queues of a listener transaction;
- `Host`: that state beside the kernel's slot map, the signal handler's snapshot
  and the log of reports;
- every function between `gzvm_find_first_ge` and `gzvm_region_commit`.

A pointer `&s->slots[i]` is the index `i`, `NULL` is `none`. Every array access
is checked. The ioctl is an oracle: `ioctlOk n` says whether the call number `n`
succeeds. Locking is left out: a commit holds `slots_lock` throughout.
-/

namespace QemuGzvm.Gzvm

open QemuGzvm.Library
open QemuGzvm.Memory

def gzvmMaxMemSlots : Nat := 512

def gzvmUserMemRegionGuestMem : Nat := 1

def gzvmUserMemRegionProtectFw : Nat := 2

def gzvmSignalMaxRegions : Nat := 64

/-- `gzvm_slot`. A slot is active when its size is not zero. -/
structure GzvmSlot where
  start : Nat := 0
  size : Nat := 0
  mem : Nat := 0
  id : Nat := 0
  flags : Nat := 0
deriving DecidableEq, Repr

/-- What a slot says to the kernel, without the id it says it under. -/
structure KernelSlot where
  start : Nat
  size : Nat
  mem : Nat
  flags : Nat
deriving DecidableEq, Repr

def GzvmSlot.contents (slot : GzvmSlot) : KernelSlot :=
  ⟨slot.start, slot.size, slot.mem, slot.flags⟩

structure GZVMState where
  slots : List GzvmSlot
  sortedIds : List Nat
  nrActiveSlots : Nat
  nrSlotsAllocated : Nat
  ramBase : Nat
  transactionAdd : List MemoryRegionSection := []
  transactionDel : List MemoryRegionSection := []
deriving DecidableEq, Repr

inductive Report where
  | removeFailed (slot : Nat)
  | noFreeSlots
  | setRegionFailed
  | registerFailed (gpa : Nat)
deriving DecidableEq, Repr

structure HvaRange where
  start : Nat
  stop : Nat
deriving DecidableEq, Repr

/-- The accelerator's state with what lies around it: the kernel's slot map, the
number of ioctls issued, the signal handler's snapshot and the report log. -/
structure Host where
  state : GZVMState
  kernel : Nat → Option KernelSlot
  ioctls : Nat
  signalHvaRanges : List HvaRange
  reports : List Report

/-- The machine the listener runs in: regions, host page size and RAM size. -/
structure Machine where
  regions : Regions
  pageSize : Nat
  ramSize : Nat

/-! ### Lookups -/

/-- The slot `s->slots[s->sorted_ids[position]]`. -/
def sortedSlot (s : GZVMState) (position : Nat) : Checked GzvmSlot :=
  (readAt s.sortedIds position).bind fun id => readAt s.slots id

def gzvmFindFirstGe (s : GZVMState) (addr : Nat) : Checked Nat :=
  bisect (fun mid => (sortedSlot s mid).bind fun slot => .ok (decide (addr ≤ slot.start)))
    s.nrActiveSlots 0 ((s.nrActiveSlots : Int) - 1) s.nrActiveSlots

def findMatchingSlotFrom (s : GZVMState) (start size mem : Nat) :
    Nat → Nat → Checked (Option Nat)
  | 0, _ => .ok none
  | remaining + 1, i =>
    (readAt s.sortedIds i).bind fun id =>
      (readAt s.slots id).bind fun slot =>
        if slot.start = start ∧ slot.size = size ∧ slot.mem = mem then .ok (some id)
        else findMatchingSlotFrom s start size mem remaining (i + 1)

def gzvmFindMatchingSlotLocked (s : GZVMState) (start size mem : Nat) : Checked (Option Nat) :=
  findMatchingSlotFrom s start size mem s.nrActiveSlots 0

/-- `addr + 1` and `addr - slot->start` wrap at `2^64`. -/
def gzvmFindSlotByAddrLocked (s : GZVMState) (addr : Nat) : Checked (Option Nat) :=
  if s.nrActiveSlots = 0 then .ok none
  else
    (gzvmFindFirstGe s ((addr + 1) % 2 ^ 64)).bind fun pos =>
      if 0 < pos then
        (readAt s.sortedIds (pos - 1)).bind fun id =>
          (readAt s.slots id).bind fun slot =>
            if (addr + 2 ^ 64 - slot.start) % 2 ^ 64 < slot.size then .ok (some id)
            else .ok none
      else .ok none

/-! ### The slot array and the sorted ids -/

/-- The slots that `g_renew`, `memset` and the loop over the ids append. -/
def freshSlots (old count : Nat) : List GzvmSlot :=
  (List.range' old count).map fun i => { id := i }

def findFreeSlot (slots : List GzvmSlot) : Option Nat :=
  slots.findIdx? fun slot => slot.size = 0

/-- The cells `g_renew` adds to `sorted_ids` hold nothing yet; they are zero here
and are written before they are read. -/
def gzvmGetFreeSlot (s : GZVMState) : GZVMState × Option Nat :=
  match findFreeSlot s.slots with
  | some i => (s, some i)
  | none =>
    let old := s.nrSlotsAllocated
    let nslots := min (old * 2) gzvmMaxMemSlots
    if nslots ≤ old then (s, none)
    else
      ({ s with
          slots := s.slots ++ freshSlots old (nslots - old)
          sortedIds := s.sortedIds ++ List.replicate (nslots - old) 0
          nrSlotsAllocated := nslots }, some old)

def sortedIdsInsert (s : GZVMState) (slotId : Nat) : Checked GZVMState :=
  (readAt s.slots slotId).bind fun slot =>
    (gzvmFindFirstGe s slot.start).bind fun pos =>
      ((memmove s.sortedIds (pos + 1) pos (s.nrActiveSlots - pos)).bind fun moved =>
        writeAt moved pos slotId).bind fun sortedIds =>
          .ok { s with sortedIds := sortedIds, nrActiveSlots := s.nrActiveSlots + 1 }

/-- The loop that walks the slots of one start address for `slotId`. -/
def sortedIdsRemoveFrom (s : GZVMState) (slotId gpa : Nat) : Nat → Nat → Checked GZVMState
  | 0, _ => .ok s
  | remaining + 1, pos =>
    (readAt s.sortedIds pos).bind fun id =>
      (readAt s.slots id).bind fun slot =>
        if slot.start = gpa then
          if id = slotId then
            (memmove s.sortedIds pos (pos + 1) (s.nrActiveSlots - pos - 1)).bind fun sortedIds =>
              .ok { s with sortedIds := sortedIds, nrActiveSlots := s.nrActiveSlots - 1 }
          else sortedIdsRemoveFrom s slotId gpa remaining (pos + 1)
        else .ok s

def gzvmUpdateSortedIds (s : GZVMState) (slotId : Nat) (add : Bool) : Checked GZVMState :=
  if add then sortedIdsInsert s slotId
  else
    (readAt s.slots slotId).bind fun slot =>
      (gzvmFindFirstGe s slot.start).bind fun pos =>
        sortedIdsRemoveFrom s slotId slot.start (s.nrActiveSlots - pos) pos

/-- The loop of `gzvm_signal_update_regions` from slot number `i` on, with `room`
free entries in the snapshot. -/
def signalRangesFrom (s : GZVMState) : Nat → Nat → Nat → Checked (List HvaRange)
  | 0, _, _ => .ok []
  | _, _, 0 => .ok []
  | remaining + 1, i, room + 1 =>
    (sortedSlot s i).bind fun slot =>
      if slot.mem ≠ 0 then
        (signalRangesFrom s remaining (i + 1) room).bind fun ranges =>
          .ok (⟨slot.mem, (slot.mem + slot.size) % 2 ^ 64⟩ :: ranges)
      else signalRangesFrom s remaining (i + 1) (room + 1)

def gzvmSignalUpdateRegions (h : Host) : Checked Host :=
  (signalRangesFrom h.state h.state.nrActiveSlots 0 gzvmSignalMaxRegions).bind fun ranges =>
    .ok { h with signalHvaRanges := ranges }

/-! ### The ioctl and the slot operations -/

/-- The kernel's slot map after a successful `GZVM_SET_USER_MEMORY_REGION`: a
size of zero removes the slot. -/
def kernelSet (kernel : Nat → Option KernelSlot) (slot : Nat) (contents : KernelSlot) :
    Nat → Option KernelSlot :=
  Function.update kernel slot (if contents.size = 0 then none else some contents)

/-- Issue the ioctl. The flag returned says whether it returned zero. -/
def gzvmSetMemoryRegionLocked (ioctlOk : Nat → Bool) (h : Host) (slot flags gpa size hva : Nat) :
    Host × Bool :=
  if ioctlOk h.ioctls then
    ({ h with
        kernel := kernelSet h.kernel slot ⟨gpa, size, hva, flags⟩
        ioctls := h.ioctls + 1 }, true)
  else ({ h with ioctls := h.ioctls + 1 }, false)

def Host.report (h : Host) (message : Report) : Host :=
  { h with reports := h.reports ++ [message] }

def gzvmMemSlotDeactivateLocked (h : Host) (slot : Nat) : Checked Host :=
  (readAt h.state.slots slot).bind fun cell =>
    (gzvmUpdateSortedIds h.state cell.id false).bind fun state =>
      (readAt state.slots slot).bind fun cell =>
        (writeAt state.slots slot
            { cell with size := 0, mem := 0, start := 0, flags := 0 }).bind fun slots =>
          gzvmSignalUpdateRegions { h with state := { state with slots := slots } }

def gzvmRemoveMemSlotLocked (ioctlOk : Nat → Bool) (h : Host) (slot : Nat) : Checked Host :=
  (readAt h.state.slots slot).bind fun cell =>
    let (h, ok) := gzvmSetMemoryRegionLocked ioctlOk h cell.id 0 0 0 0
    if ok then gzvmMemSlotDeactivateLocked h slot
    else .ok (h.report (.removeFailed cell.id))

def gzvmAddMemSlot (ioctlOk : Nat → Bool) (h : Host) (hva gpa size flags : Nat) :
    Checked (Host × Bool) :=
  match gzvmGetFreeSlot h.state with
  | (state, none) => .ok ({ h with state := state }.report .noFreeSlots, false)
  | (state, some slot) =>
    let h := { h with state := state }
    (readAt h.state.slots slot).bind fun cell =>
      let (h, ok) := gzvmSetMemoryRegionLocked ioctlOk h cell.id flags gpa size hva
      if ok then
        (writeAt h.state.slots slot
            { cell with size := size, mem := hva, start := gpa, flags := flags }).bind fun slots =>
          (gzvmUpdateSortedIds { h.state with slots := slots } cell.id true).bind fun state =>
            (gzvmSignalUpdateRegions { h with state := state }).bind fun h => .ok (h, true)
      else .ok (h.report .setRegionFailed, false)

def gzvmAddMem (m : Machine) (ioctlOk : Nat → Bool) (h : Host) (sec : MemoryRegionSection)
    (flags : Nat) : Checked (Host × Bool) :=
  (int128Get64 sec.size).bind fun totalSize =>
    (memoryRegionGetRamPtr (m.regions sec.mr)).bind fun ram =>
      gzvmAddMemSlot ioctlOk h ((ram + sec.offsetWithinRegion) % 2 ^ 64)
        sec.offsetWithinAddressSpace totalSize flags

/-- The three early returns of `gzvm_set_phys_mem_locked`: the kind of the
region, the shape of the section, and its place in the guest. The comparison
against the end of RAM wraps at `2^64`. -/
def physMemAccepted (m : Machine) (ramBase : Nat) (area : MemoryRegion)
    (sectionStart sectionSize : Nat) : Bool :=
  if !memoryRegionIsRam area && !memoryRegionIsRom area && !memoryRegionIsRomd area then false
  else if sectionSize = 0 || decide (sectionStart > 2 ^ 64 - 1 - sectionSize) ||
      sectionSize % m.pageSize != 0 || sectionStart % m.pageSize != 0 then false
  else if memoryRegionIsRom area || memoryRegionIsRomd area then sectionStart = 0
  else !(decide (sectionStart < ramBase) ||
    decide (sectionStart + sectionSize > (ramBase + m.ramSize) % 2 ^ 64))

def purposeFlags (area : MemoryRegion) : Nat :=
  if area.readonly || area.romDevice then gzvmUserMemRegionProtectFw
  else gzvmUserMemRegionGuestMem

def gzvmSetPhysMemLocked (m : Machine) (ioctlOk : Nat → Bool) (h : Host)
    (sec : MemoryRegionSection) (add : Bool) : Checked Host :=
  let area := m.regions sec.mr
  let sectionStart := sec.offsetWithinAddressSpace
  (int128Get64 sec.size).bind fun sectionSize =>
    if !physMemAccepted m h.state.ramBase area sectionStart sectionSize then .ok h
    else
      (memoryRegionGetRamPtr area).bind fun ram =>
        let sectionHva := (ram + sec.offsetWithinRegion) % 2 ^ 64
        (gzvmFindMatchingSlotLocked h.state sectionStart sectionSize sectionHva).bind fun found =>
          match add, found with
          | false, some slot => gzvmRemoveMemSlotLocked ioctlOk h slot
          | false, none => .ok h
          | true, some _ => .ok h
          | true, none =>
            (gzvmAddMem m ioctlOk h sec (purposeFlags area)).bind fun (h, ok) =>
              if ok then .ok h
              else .ok (h.report (.registerFailed sec.offsetWithinAddressSpace))

/-! ### The listener -/

def gzvmRegionAdd (h : Host) (sec : MemoryRegionSection) : Host :=
  { h with state := { h.state with transactionAdd := h.state.transactionAdd ++ [sec] } }

def gzvmRegionDel (h : Host) (sec : MemoryRegionSection) : Host :=
  { h with state := { h.state with transactionDel := h.state.transactionDel ++ [sec] } }

/-- Handle the queued sections in order. The queue is emptied by the caller:
nothing the handler does reads it. -/
def drainSections (m : Machine) (ioctlOk : Nat → Bool) (add : Bool) :
    Host → List MemoryRegionSection → Checked Host
  | h, [] => .ok h
  | h, sec :: rest =>
    (gzvmSetPhysMemLocked m ioctlOk h sec add).bind fun h =>
      drainSections m ioctlOk add h rest

def gzvmDrainUpdates (m : Machine) (ioctlOk : Nat → Bool) (h : Host) (add : Bool) : Checked Host :=
  if add then
    drainSections m ioctlOk true
      { h with state := { h.state with transactionAdd := [] } } h.state.transactionAdd
  else
    drainSections m ioctlOk false
      { h with state := { h.state with transactionDel := [] } } h.state.transactionDel

def gzvmRegionCommit (m : Machine) (ioctlOk : Nat → Bool) (h : Host) : Checked Host :=
  if h.state.transactionAdd.isEmpty && h.state.transactionDel.isEmpty then .ok h
  else
    (gzvmDrainUpdates m ioctlOk h false).bind fun h => gzvmDrainUpdates m ioctlOk h true

/-- The table `gzvm_create_vm` builds, beside an empty kernel map. -/
def gzvmCreateVm (ramBase : Nat) : Host where
  state :=
    { slots := freshSlots 0 32
      sortedIds := List.replicate 32 0
      nrActiveSlots := 0
      nrSlotsAllocated := 32
      ramBase := ramBase }
  kernel := fun _ => none
  ioctls := 0
  signalHvaRanges := []
  reports := []

end QemuGzvm.Gzvm
