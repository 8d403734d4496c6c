import QemuGzvm.Gzvm.Commit

/-!
Contract: the demand-paging handler of `accel/gzvm/gzvm-signal.c` and the snapshot it
works on.

Owns:
- `gzvm_sigsegv_handler` with its scan of the snapshot;
- what the snapshot holds: the ranges of the first slots in order of their guest
  addresses, as many as it has room for;
- that it is up to date after every commit, and for which tables the scan recognises
  exactly the guest's memory.

The snapshot has 64 entries, the slot table up to 512.
-/

namespace QemuGzvm.Gzvm

open QemuGzvm.Library
open QemuGzvm.Memory

/-! ### The handler -/

/-- The scan for the range of the faulting address. -/
def inGzvm : List HvaRange → Nat → Bool
  | [], _ => false
  | range :: rest, addr =>
    if range.start ≤ addr ∧ addr < range.stop then true else inGzvm rest addr

inductive MmapResult where
  | mapped
  | eexist
  | failed
deriving DecidableEq, Repr

/-- How the handler ends: it returns to the faulting access, or restores the default
handler and raises the signal again. -/
inductive HandlerResult where
  | returned
  | raised
deriving DecidableEq, Repr

/-- `sigbus` says that the signal is `SIGBUS`; `mmap` is told the page. -/
def gzvmSigsegvHandler (pageSize : Nat) (ranges : List HvaRange) (mmap : Nat → MmapResult)
    (sigbus : Bool) (siAddr : Nat) : HandlerResult :=
  if sigbus && siAddr != 0 && inGzvm ranges siAddr then
    match mmap (siAddr / pageSize * pageSize) with
    | .mapped | .eexist => .returned
    | .failed => .raised
  else .raised

variable {addr : Nat} {s : GZVMState} {after h : Host}

theorem inGzvm_iff {ranges : List HvaRange} :
    inGzvm ranges addr = true ↔ ∃ range ∈ ranges, range.start ≤ addr ∧ addr < range.stop := by
  induction ranges with
  | nil => simp [inGzvm]
  | cons range rest ih =>
    rw [inGzvm]
    split
    · next inside => simp [inside]
    · next outside => simp [ih, outside]

/-! ### The snapshot -/

/-- The slots the snapshot has room for. -/
def GZVMState.recordedSlots (s : GZVMState) : List GzvmSlot :=
  ((s.activeIds.map s.slotAt).filter fun slot => slot.mem ≠ 0).take gzvmSignalMaxRegions

/-- `end` is a sum of two words. -/
def GzvmSlot.hvaRange (slot : GzvmSlot) : HvaRange :=
  ⟨slot.mem, (slot.mem + slot.size) % 2 ^ 64⟩

theorem Indexed.signalRangesFrom_eq (indexed : Indexed s) (remaining i room : Nat)
    (total : i + remaining = s.nrActiveSlots) :
    signalRangesFrom s remaining i room =
      .ok (((((s.activeIds.drop i).map s.slotAt).filter fun slot => slot.mem ≠ 0).take room).map
        GzvmSlot.hvaRange) := by
  have activeLength := indexed.activeIds_length
  induction remaining generalizing i room with
  | zero =>
    rw [List.drop_of_length_le (by omega)]
    cases room <;> rfl
  | succ remaining ih =>
    cases room with
    | zero => rfl
    | succ room =>
      have live : i < s.activeIds.length := by omega
      rw [signalRangesFrom, indexed.sortedSlot_eq live, bind_ok, List.drop_eq_getElem_cons live,
        List.map_cons]
      split
      · next backed =>
        rw [ih (i + 1) room (by omega), bind_ok,
          List.filter_cons_of_pos (by simpa using backed)]
        rfl
      · grind

def Signalled (h : Host) : Prop :=
  h.signalHvaRanges = h.state.recordedSlots.map GzvmSlot.hvaRange

theorem signalled_of_update (updated : gzvmSignalUpdateRegions h = .ok after)
    (indexed : Indexed after.state) : Signalled after := by
  obtain ⟨ranges, scanned, result⟩ := bind_eq_ok.mp updated
  cases result
  rw [indexed.signalRangesFrom_eq _ 0 _ (Nat.zero_add _)] at scanned
  exact (Except.ok.inj scanned).symm

section Operations

variable {add : Bool} {m : Machine}

theorem removeMemSlot_signalled {slot : Nat}
    (removed : gzvmRemoveMemSlotLocked (fun _ => true) h slot = .ok after)
    (indexed : Indexed after.state) : Signalled after := by
  obtain ⟨cell, -, removing⟩ := bind_eq_ok.mp removed
  obtain ⟨listed, -, deactivating⟩ := bind_eq_ok.mp removing
  obtain ⟨state, -, clearing⟩ := bind_eq_ok.mp deactivating
  obtain ⟨cleared, -, writing⟩ := bind_eq_ok.mp clearing
  obtain ⟨slots, -, updating⟩ := bind_eq_ok.mp writing
  exact signalled_of_update updating indexed

theorem getFreeSlot_none {s state : GZVMState} (full : gzvmGetFreeSlot s = (state, none)) :
    state = s := by
  grind [gzvmGetFreeSlot]

theorem addMemSlot_signalled {hva gpa size flags : Nat} {added : Bool} (current : Signalled h)
    (adding : gzvmAddMemSlot (fun _ => true) h hva gpa size flags = .ok (after, added))
    (indexed : Indexed after.state) : Signalled after := by
  unfold gzvmAddMemSlot at adding
  split at adding
  · next state full =>
    cases adding
    rw [getFreeSlot_none full]
    exact current
  · obtain ⟨cell, -, setting⟩ := bind_eq_ok.mp adding
    obtain ⟨slots, -, listing⟩ := bind_eq_ok.mp setting
    obtain ⟨state, -, updating⟩ := bind_eq_ok.mp listing
    obtain ⟨signalled, updated, result⟩ := bind_eq_ok.mp updating
    cases result
    exact signalled_of_update updated indexed

theorem setPhysMem_signalled {sec : MemoryRegionSection} (current : Signalled h)
    (handled : gzvmSetPhysMemLocked m (fun _ => true) h sec add = .ok after)
    (indexed : Indexed after.state) : Signalled after := by
  unfold gzvmSetPhysMemLocked at handled
  obtain ⟨size, -, filtering⟩ := bind_eq_ok.mp handled
  split at filtering
  · cases filtering
    exact current
  · obtain ⟨ram, -, finding⟩ := bind_eq_ok.mp filtering
    obtain ⟨found, -, acting⟩ := bind_eq_ok.mp finding
    split at acting
    · exact removeMemSlot_signalled acting indexed
    · cases acting
      exact current
    · cases acting
      exact current
    · obtain ⟨⟨host, done⟩, adding, reporting⟩ := bind_eq_ok.mp acting
      obtain ⟨total, -, locating⟩ := bind_eq_ok.mp adding
      obtain ⟨base, -, adding⟩ := bind_eq_ok.mp locating
      dsimp only at reporting
      split at reporting <;> cases reporting
      · exact addMemSlot_signalled current adding indexed
      · exact (show Signalled host from addMemSlot_signalled current adding indexed)

theorem drainSections_signalled {sections : List MemoryRegionSection} (ok : HostOk h)
    (current : Signalled h) (drained : drainSections m (fun _ => true) add h sections = .ok after) :
    Signalled after := by
  induction sections generalizing h with
  | nil =>
    cases drained
    exact current
  | cons sec rest ih =>
    obtain ⟨middle, handled, draining⟩ := bind_eq_ok.mp drained
    rcases setPhysMem_spec ok m (fun _ => true) sec add with ⟨-, fails⟩ |
      ⟨other, -, same, otherOk, -⟩
    · rw [handled] at fails
      cases fails
    · rw [handled] at same
      cases same
      exact ih otherOk
        (setPhysMem_signalled current handled otherOk.table.toIndexed) draining

theorem commit_signalled (ok : HostOk h) (current : Signalled h)
    (committed : gzvmRegionCommit m (fun _ => true) h = .ok after) : Signalled after := by
  unfold gzvmRegionCommit at committed
  split at committed
  · cases committed
    exact current
  · obtain ⟨deleted, deleting, adding⟩ := bind_eq_ok.mp committed
    simp only [gzvmDrainUpdates, Bool.false_eq_true, if_false, if_true] at deleting adding
    have okDel : HostOk { h with state := { h.state with transactionDel := [] } } :=
      ok.withQueues h.state.transactionAdd []
    rcases drainSections_spec m (fun _ => true) false h.state.transactionDel okDel with
      ⟨-, fails⟩ | ⟨other, same, otherOk, -⟩
    · rw [deleting] at fails
      cases fails
    · rw [deleting] at same
      cases same
      have signalled := drainSections_signalled okDel (show Signalled _ from current) deleting
      have okAdd : HostOk { deleted with state := { deleted.state with transactionAdd := [] } } :=
        otherOk.withQueues [] deleted.state.transactionDel
      exact drainSections_signalled okAdd (show Signalled _ from signalled) adding

end Operations

/-! ### Every run -/

/-- After every commit the snapshot is that of the table. -/
theorem runTransactions_signalled {transactions : List Transaction} (ok : HostOk h)
    (noAdd : h.state.transactionAdd = []) (noDel : h.state.transactionDel = [])
    (current : Signalled h) (ran : runTransactions (fun _ => true) h transactions = .ok after) :
    HostOk after ∧ Signalled after := by
  induction transactions generalizing h with
  | nil =>
    cases ran
    exact ⟨ok, current⟩
  | cons t rest ih =>
    obtain ⟨middle, committed, running⟩ := bind_eq_ok.mp ran
    rcases t.run_spec (fun _ => true) ok noAdd noDel with ⟨-, fails⟩ |
      ⟨other, same, otherOk, -, otherAdd, otherDel⟩
    · rw [committed] at fails
      cases fails
    · rw [committed] at same
      cases same
      rw [Transaction.run, foldl_queue] at committed
      apply ih otherOk otherAdd otherDel _ running
      refine commit_signalled (ok.withQueues _ _) ?_ committed
      exact current

def GuestMemory (s : GZVMState) (addr : Nat) : Prop :=
  ∃ id, (s.slotAt id).size ≠ 0 ∧ (s.slotAt id).mem ≤ addr ∧
    addr < (s.slotAt id).mem + (s.slotAt id).size

/-- Each address of an active slot belongs to one of the recorded slots, those first in
order of their guest addresses, whose end is a host address as well. -/
def RecordedCover (s : GZVMState) : Prop :=
  ∀ id, (s.slotAt id).size ≠ 0 → ∀ addr, addr < 2 ^ 64 → (s.slotAt id).mem ≤ addr →
    addr < (s.slotAt id).mem + (s.slotAt id).size →
      ∃ slot ∈ s.recordedSlots, slot.mem ≤ addr ∧ addr < (slot.mem + slot.size) % 2 ^ 64

/-- What the scan recognises is guest memory. -/
theorem inGzvm_sound (ok : HostOk h) (current : Signalled h)
    (recognised : inGzvm h.signalHvaRanges addr = true) : GuestMemory h.state addr := by
  obtain ⟨range, member, low, high⟩ := inGzvm_iff.mp recognised
  rw [current] at member
  obtain ⟨slot, recorded, rfl⟩ := List.mem_map.mp member
  have kept := List.mem_of_mem_take recorded
  obtain ⟨id, active, rfl⟩ := List.mem_map.mp (List.mem_filter.mp kept).1
  refine ⟨id, ((ok.table.active id).mp active).2, low, ?_⟩
  exact Nat.lt_of_lt_of_le high (Nat.mod_le _ _)

/-- A table of no more slots than the snapshot has room for is covered, if its slots are
host memory. -/
theorem recordedCover_of_few (ok : HostOk h) (few : h.state.nrActiveSlots ≤ gzvmSignalMaxRegions)
    (mapped : ∀ id ∈ h.state.activeIds, (h.state.slotAt id).mem ≠ 0 ∧
      (h.state.slotAt id).mem + (h.state.slotAt id).size < 2 ^ 64) : RecordedCover h.state := by
  have all : h.state.recordedSlots = h.state.activeIds.map h.state.slotAt := by
    have backed : (h.state.activeIds.map h.state.slotAt).filter (fun slot => slot.mem ≠ 0) =
        h.state.activeIds.map h.state.slotAt := by
      grind [List.filter_eq_self]
    rw [GZVMState.recordedSlots, backed, List.take_of_length_le]
    rw [List.length_map, ok.table.activeIds_length]
    exact few
  intro id active addr _ low high
  have listed : id ∈ h.state.activeIds := by
    refine (ok.table.active id).mpr ⟨?_, active⟩
    by_contra outside
    have beyond : h.state.slots.length ≤ id := by
      rw [ok.table.slotsLength]
      omega
    simp [GZVMState.slotAt, List.getElem?_eq_none beyond] at active
  refine ⟨h.state.slotAt id, ?_, low, ?_⟩
  · rw [all]
    exact List.mem_map_of_mem listed
  · rw [Nat.mod_eq_of_lt (mapped id listed).2]
    exact high

/-- A machine with one RAM region, and the addition of `count` pages of it, every other
one from the start. -/
private def pagesAdded (count : Nat) : Transaction where
  machine :=
    { regions := fun _ => { ram := true, ramBlock := some 0x10000000 }
      pageSize := 0x1000
      ramSize := 0x10000000 }
  calls := (List.range count).map fun page =>
    .regionAdd
      { size := 0x1000
        mr := 0
        offsetWithinRegion := 0x2000 * page
        offsetWithinAddressSpace := 0x2000 * page }

end QemuGzvm.Gzvm
