import QemuGzvm.Gzvm.SlotTable

/-!
Contract: one section, one queue, one commit, and any run of transactions.

Owns:
- `setPhysMem_spec`, the only place that unfolds `gzvm_set_phys_mem_locked`: an
  assertion failure, no change, one slot unregistered or one slot registered;
- `commit_spec` and `run_spec`, the same for a commit and for a run;
- the agreement of table and kernel after every commit.

A section stops the run only through an assertion of the code itself:
`int128_get64` on a size of `2^64`, or `memory_region_get_ram_ptr` on a region
without a `RAMBlock`.
-/

namespace QemuGzvm.Gzvm

open QemuGzvm.Library
open QemuGzvm.Memory

/-! ### What a section asks for -/

def sectionHva (m : Machine) (sec : MemoryRegionSection) : Nat :=
  ((m.regions sec.mr).ramBlock.getD 0 + sec.offsetWithinRegion) % 2 ^ 64

def sectionContents (m : Machine) (sec : MemoryRegionSection) : KernelSlot :=
  ⟨sec.offsetWithinAddressSpace, sec.size, sectionHva m sec, purposeFlags (m.regions sec.mr)⟩

/-- The section passes the filter of `gzvm_set_phys_mem_locked`. -/
def sectionAccepted (m : Machine) (ramBase : Nat) (sec : MemoryRegionSection) : Bool :=
  physMemAccepted m ramBase (m.regions sec.mr) sec.offsetWithinAddressSpace sec.size

def Asserts (m : Machine) (ramBase : Nat) (sec : MemoryRegionSection) : Prop :=
  2 ^ 64 ≤ sec.size ∨
    sectionAccepted m ramBase sec = true ∧ (m.regions sec.mr).ramBlock = none

/-- The three fields `gzvm_find_matching_slot_locked` compares. -/
def KernelSlot.SamePlace (left right : KernelSlot) : Prop :=
  left.start = right.start ∧ left.size = right.size ∧ left.mem = right.mem

theorem physMemAccepted_size {m : Machine} {ramBase start size : Nat} {area : MemoryRegion}
    (accepted : physMemAccepted m ramBase area start size = true) : size ≠ 0 := by
  rintro rfl
  simp [physMemAccepted] at accepted

/-- A slot of the section's place is registered. -/
def Registered (m : Machine) (h : Host) (sec : MemoryRegionSection) : Prop :=
  ∃ contents ∈ h.state.registered, contents.SamePlace (sectionContents m sec)

section SetPhysMem

variable {h : Host} {ioctlOk : Nat → Bool} {m : Machine} {sec : MemoryRegionSection}

theorem mem_registered {s : GZVMState} {contents : KernelSlot} :
    contents ∈ s.registered ↔ ∃ id ∈ s.activeIds, (s.slotAt id).contents = contents := by
  simp [GZVMState.registered]

/-- A section is handled without an assertion when it is rejected or has memory behind it. -/
theorem not_asserts_iff {ramBase : Nat} : ¬Asserts m ramBase sec ↔ sec.size < 2 ^ 64 ∧
    (sectionAccepted m ramBase sec = false ∨
      sectionAccepted m ramBase sec = true ∧ ∃ ram, (m.regions sec.mr).ramBlock = some ram) := by
  unfold Asserts
  cases sectionAccepted m ramBase sec <;> cases (m.regions sec.mr).ramBlock <;> simp

theorem HostOk.findMatching (ok : HostOk h) (m : Machine) (sec : MemoryRegionSection) :
    (∃ slot ∈ h.state.activeIds, gzvmFindMatchingSlotLocked h.state sec.offsetWithinAddressSpace
        sec.size (sectionHva m sec) = .ok (some slot) ∧
      (h.state.slotAt slot).contents ∈ h.state.registered ∧
      (h.state.slotAt slot).contents.SamePlace (sectionContents m sec)) ∨
    gzvmFindMatchingSlotLocked h.state sec.offsetWithinAddressSpace sec.size (sectionHva m sec) =
        .ok none ∧ ¬Registered m h sec := by
  rcases ok.table.findMatchingSlot_spec sec.offsetWithinAddressSpace sec.size (sectionHva m sec) with
    ⟨slot, listed, found, place⟩ | ⟨found, absent⟩
  · exact Or.inl ⟨slot, listed, found, mem_registered.mpr ⟨slot, listed, rfl⟩, place⟩
  · refine Or.inr ⟨found, ?_⟩
    rintro ⟨contents, member, same⟩
    obtain ⟨id, listed, rfl⟩ := mem_registered.mp member
    exact absent id listed same

/-- A deleted section unregisters a slot of its place, if there is one and the ioctl succeeds. An
added section registers its contents, if its place is not registered yet, a slot is left and the
ioctl succeeds. -/
theorem setPhysMem_accepted (ioctlOk : Nat → Bool) (ok : HostOk h) (fits : sec.size < 2 ^ 64)
    (accepted : sectionAccepted m h.state.ramBase sec = true)
    {ram : Nat} (backed : (m.regions sec.mr).ramBlock = some ram) (add : Bool) :
    ∃ h', gzvmSetPhysMemLocked m ioctlOk h sec add = .ok h' ∧ HostOk h' ∧
      SameQueues h.state h'.state ∧
      (add = false → (¬Registered m h sec → h' = h) ∧
        (ioctlOk h.ioctls = true → Registered m h sec →
          ∃ contents, contents.SamePlace (sectionContents m sec) ∧
            h.state.registered.Perm (contents :: h'.state.registered))) ∧
      (add = true → (Registered m h sec → h' = h) ∧
        (ioctlOk h.ioctls = true → h.state.registered.length < gzvmMaxMemSlots →
          ¬Registered m h sec →
          h'.state.registered.Perm (sectionContents m sec :: h.state.registered)) ∧
        ∀ contents ∈ h.state.registered, contents ∈ h'.state.registered) := by
  have hva : (ram + sec.offsetWithinRegion) % 2 ^ 64 = sectionHva m sec := by
    simp [sectionHva, backed]
  have accepted' : physMemAccepted m h.state.ramBase (m.regions sec.mr)
      sec.offsetWithinAddressSpace sec.size = true := accepted
  simp only [gzvmSetPhysMemLocked, int128Get64_natCast fits, bind_ok, accepted',
    memoryRegionGetRamPtr, backed, hva, Bool.not_true, Bool.false_eq_true, if_false]
  rcases ok.findMatching m sec with ⟨slot, listed, found, registered, place⟩ | ⟨found, absent⟩ <;>
    rw [found]
  · have present : Registered m h sec := ⟨_, registered, place⟩
    cases add with
    | false =>
      obtain ⟨h', removed, ok', queues, success, _⟩ := removeMemSlot_spec ioctlOk ok listed
      exact ⟨h', removed, ok', queues, fun _ => ⟨fun absent => absurd present absent,
        fun outcome _ => ⟨_, place, success outcome⟩⟩, nofun⟩
    | true =>
      exact ⟨h, rfl, ok, ⟨rfl, rfl, rfl⟩, nofun, fun _ => ⟨fun _ => rfl,
        fun _ _ absent => absurd present absent, fun _ => id⟩⟩
  · cases add with
    | false =>
      exact ⟨h, rfl, ok, ⟨rfl, rfl, rfl⟩, fun _ => ⟨fun _ => rfl,
        fun _ present => absurd present absent⟩, nofun⟩
    | true =>
      have activeLength : h.state.registered.length = h.state.nrActiveSlots := by
        rw [GZVMState.registered, List.length_map, ok.table.activeIds_length]
      obtain ⟨h', added, result, ok', queues, yes, no, always⟩ := addMemSlot_spec ioctlOk
        ok (sectionHva m sec) sec.offsetWithinAddressSpace (purposeFlags (m.regions sec.mr))
        (physMemAccepted_size accepted')
      simp only [gzvmAddMem, int128Get64_natCast fits, bind_ok, memoryRegionGetRamPtr, backed, hva,
        result]
      cases added with
      | true =>
        exact ⟨h', rfl, ok', queues, nofun, fun _ => ⟨fun present => absurd present absent,
          fun _ _ _ => yes rfl,
          fun contents member => (yes rfl).mem_iff.mpr (List.mem_cons_of_mem _ member)⟩⟩
      | false =>
        refine ⟨_, rfl, ⟨ok'.table, ok'.kernel⟩, queues, nofun,
          fun _ => ⟨fun present => absurd present absent, fun outcome room _ => ?_, ?_⟩⟩
        · exact absurd (always outcome (by omega)) (by simp)
        · intro contents member
          rw [← no rfl] at member
          exact member

theorem setPhysMem_rejected (fits : sec.size < 2 ^ 64)
    (rejected : sectionAccepted m h.state.ramBase sec = false) (add : Bool) :
    gzvmSetPhysMemLocked m ioctlOk h sec add = .ok h := by
  have rejected' : physMemAccepted m h.state.ramBase (m.regions sec.mr)
      sec.offsetWithinAddressSpace sec.size = false := rejected
  simp [gzvmSetPhysMemLocked, int128Get64_natCast fits, bind_ok, rejected']

/-- One section of a queue keeps table and kernel in agreement, whichever way the
ioctl goes, or stops at an assertion. -/
theorem setPhysMem_spec (ok : HostOk h) (m : Machine) (ioctlOk : Nat → Bool)
    (sec : MemoryRegionSection) (add : Bool) :
    (Asserts m h.state.ramBase sec ∧
      gzvmSetPhysMemLocked m ioctlOk h sec add = .error .assertion) ∨
    ∃ h', ¬Asserts m h.state.ramBase sec ∧ gzvmSetPhysMemLocked m ioctlOk h sec add = .ok h' ∧
      HostOk h' ∧ SameQueues h.state h'.state := by
  by_cases asserts : Asserts m h.state.ramBase sec
  · refine Or.inl ⟨asserts, ?_⟩
    by_cases fits : sec.size < 2 ^ 64
    · obtain ⟨accepted, unbacked⟩ := asserts.resolve_left (Nat.not_le_of_lt fits)
      have accepted' : physMemAccepted m h.state.ramBase (m.regions sec.mr)
          sec.offsetWithinAddressSpace sec.size = true := accepted
      simp [gzvmSetPhysMemLocked, int128Get64_natCast fits, bind_ok, bind_error, accepted',
        memoryRegionGetRamPtr, unbacked]
    · have tooLarge : ¬((0 : Int) ≤ sec.size ∧ (sec.size : Int) < 2 ^ 64) := by
        rintro ⟨_, small⟩
        exact fits (by exact_mod_cast small)
      simp only [gzvmSetPhysMemLocked, int128Get64, if_neg tooLarge, bind_error]
  · right
    obtain ⟨fits, rejected | ⟨accepted, ram, backed⟩⟩ := not_asserts_iff.mp asserts
    · exact ⟨h, asserts, setPhysMem_rejected fits rejected add, ok, ⟨rfl, rfl, rfl⟩⟩
    · obtain ⟨h', result, ok', queues, _⟩ :=
        setPhysMem_accepted ioctlOk ok fits accepted backed add
      exact ⟨h', asserts, result, ok', queues⟩

end SetPhysMem

/-! ### Queues, commits and runs -/

theorem HostOk.withQueues {h : Host} (ok : HostOk h) (add del : List MemoryRegionSection) :
    HostOk { h with state := { h.state with transactionAdd := add, transactionDel := del } } :=
  ⟨⟨⟨ok.table.slotsLength, ok.table.sortedLength, ok.table.activeLe, ok.table.inside,
    ok.table.sorted⟩, ok.table.allocatedPos, ok.table.allocatedLe, ok.table.idEq, ok.table.nodup,
    ok.table.active⟩, ok.kernel⟩

theorem drainSections_spec (m : Machine) (ioctlOk : Nat → Bool) (add : Bool)
    (sections : List MemoryRegionSection) {h : Host} (ok : HostOk h) :
    (∃ sec ∈ sections, Asserts m h.state.ramBase sec) ∧
        drainSections m ioctlOk add h sections = .error .assertion ∨
      ∃ h', drainSections m ioctlOk add h sections = .ok h' ∧ HostOk h' ∧
        SameQueues h.state h'.state := by
  induction sections generalizing h with
  | nil => exact Or.inr ⟨h, rfl, ok, ⟨rfl, rfl, rfl⟩⟩
  | cons sec rest ih =>
    rcases setPhysMem_spec ok m ioctlOk sec add with ⟨asserts, fails⟩ |
      ⟨h', _, result, ok', queues⟩
    · left
      exact ⟨⟨sec, by simp, asserts⟩, by rw [drainSections, fails, bind_error]⟩
    · rw [drainSections, result, bind_ok]
      rcases ih ok' with ⟨⟨later, member, asserts⟩, fails⟩ |
        ⟨last, lastResult, lastOk, lastQueues⟩
      · left
        rw [queues.ramBase] at asserts
        exact ⟨⟨later, List.mem_cons_of_mem _ member, asserts⟩, fails⟩
      · right
        exact ⟨last, lastResult, lastOk, queues.trans lastQueues⟩

theorem commit_spec (m : Machine) (ioctlOk : Nat → Bool) {h : Host} (ok : HostOk h) :
    (∃ sec ∈ h.state.transactionDel ++ h.state.transactionAdd, Asserts m h.state.ramBase sec) ∧
        gzvmRegionCommit m ioctlOk h = .error .assertion ∨
      ∃ h', gzvmRegionCommit m ioctlOk h = .ok h' ∧ HostOk h' ∧
        h'.state.ramBase = h.state.ramBase ∧ h'.state.transactionAdd = [] ∧
        h'.state.transactionDel = [] := by
  by_cases idle : h.state.transactionAdd.isEmpty && h.state.transactionDel.isEmpty
  · grind [gzvmRegionCommit]
  · simp only [gzvmRegionCommit, if_neg idle, gzvmDrainUpdates, Bool.false_eq_true, if_false,
      if_true]
    have okDel : HostOk { h with state := { h.state with transactionDel := [] } } :=
      ok.withQueues h.state.transactionAdd []
    rcases drainSections_spec m ioctlOk false h.state.transactionDel okDel with
      ⟨⟨sec, member, asserts⟩, fails⟩ | ⟨deleted, delResult, delOk, delQueues⟩
    · left
      exact ⟨⟨sec, by simp [member], asserts⟩, by rw [fails, bind_error]⟩
    · rw [delResult, bind_ok]
      have okAdd : HostOk { deleted with state := { deleted.state with transactionAdd := [] } } :=
        delOk.withQueues [] deleted.state.transactionDel
      have addEq : deleted.state.transactionAdd = h.state.transactionAdd := delQueues.add
      rcases drainSections_spec m ioctlOk true deleted.state.transactionAdd okAdd with
        ⟨⟨sec, member, asserts⟩, fails⟩ | ⟨added, addResult, addOk, addQueues⟩
      · left
        have asserts' : Asserts m h.state.ramBase sec := by
          have baseEq : deleted.state.ramBase = h.state.ramBase := delQueues.ramBase
          rw [← baseEq]
          exact asserts
        exact ⟨⟨sec, by rw [addEq] at member; simp [member], asserts'⟩, fails⟩
      · right
        exact ⟨added, addResult, addOk, addQueues.ramBase.trans delQueues.ramBase, addQueues.add,
          addQueues.del.trans delQueues.del⟩

inductive ListenerCall where
  | regionAdd (sec : MemoryRegionSection)
  | regionDel (sec : MemoryRegionSection)

def ListenerCall.added : ListenerCall → Option MemoryRegionSection
  | .regionAdd sec => some sec
  | .regionDel _ => none

def ListenerCall.deleted : ListenerCall → Option MemoryRegionSection
  | .regionAdd _ => none
  | .regionDel sec => some sec

def ListenerCall.queue (h : Host) : ListenerCall → Host
  | .regionAdd sec => gzvmRegionAdd h sec
  | .regionDel sec => gzvmRegionDel h sec

/-- The callbacks of one transaction and the machine its commit runs in. -/
structure Transaction where
  machine : Machine
  calls : List ListenerCall

def Transaction.run (ioctlOk : Nat → Bool) (h : Host) (t : Transaction) : Checked Host :=
  gzvmRegionCommit t.machine ioctlOk (t.calls.foldl ListenerCall.queue h)

def runTransactions (ioctlOk : Nat → Bool) : Host → List Transaction → Checked Host
  | h, [] => .ok h
  | h, t :: rest => (t.run ioctlOk h).bind fun h => runTransactions ioctlOk h rest

/-- The callbacks only append to the two queues. -/
theorem foldl_queue (calls : List ListenerCall) (h : Host) :
    calls.foldl ListenerCall.queue h =
      { h with state := { h.state with
          transactionAdd := h.state.transactionAdd ++ calls.filterMap ListenerCall.added
          transactionDel := h.state.transactionDel ++ calls.filterMap ListenerCall.deleted } } := by
  induction calls generalizing h with
  | nil => simp
  | cons call calls ih =>
    rw [List.foldl_cons, ih]
    cases call <;>
      simp [ListenerCall.queue, gzvmRegionAdd, gzvmRegionDel, List.filterMap_cons,
        ListenerCall.added, ListenerCall.deleted]

theorem hostOk_createVm (ramBase : Nat) : HostOk (gzvmCreateVm ramBase) := by
  have slotAtEq : ∀ id, (gzvmCreateVm ramBase).state.slotAt id =
      if id < 32 then { id := id } else {} := by
    intro id
    simp only [gzvmCreateVm, GZVMState.slotAt, freshSlots_getElem?, Nat.zero_add]
    split <;> rfl
  have sizeEq : ∀ id, ((gzvmCreateVm ramBase).state.slotAt id).size = 0 := by
    intro id
    rw [slotAtEq]
    split <;> rfl
  refine ⟨⟨⟨rfl, rfl, Nat.zero_le _, ?_, ?_⟩, Nat.zero_lt_succ _, ?_, ?_, ?_, ?_⟩, ?_⟩
  · intro id member
    exact absurd member (by simp [gzvmCreateVm, GZVMState.activeIds])
  · simp [gzvmCreateVm, GZVMState.activeIds]
  · show 32 ≤ gzvmMaxMemSlots
    decide
  · intro i inside
    have inside' : i < 32 := inside
    rw [slotAtEq, if_pos inside']
  · simp [gzvmCreateVm, GZVMState.activeIds]
  · intro id
    rw [sizeEq]
    simp [gzvmCreateVm, GZVMState.activeIds]
  · intro id
    rw [sizeEq, if_pos rfl]
    rfl

theorem Transaction.run_spec (ioctlOk : Nat → Bool) (t : Transaction) {h : Host} (ok : HostOk h)
    (noAdd : h.state.transactionAdd = []) (noDel : h.state.transactionDel = []) :
    (∃ call ∈ t.calls, ∃ sec, (call = .regionAdd sec ∨ call = .regionDel sec) ∧
        Asserts t.machine h.state.ramBase sec) ∧ t.run ioctlOk h = .error .assertion ∨
      ∃ h', t.run ioctlOk h = .ok h' ∧ HostOk h' ∧ h'.state.ramBase = h.state.ramBase ∧
        h'.state.transactionAdd = [] ∧ h'.state.transactionDel = [] := by
  rw [Transaction.run, foldl_queue]
  rcases commit_spec t.machine ioctlOk (ok.withQueues _ _) with
    ⟨⟨sec, member, asserts⟩, fails⟩ | done
  · left
    refine ⟨?_, fails⟩
    simp only [noAdd, noDel, List.nil_append, List.mem_append, List.mem_filterMap] at member
    rcases member with ⟨call, inCalls, isDel⟩ | ⟨call, inCalls, isAdd⟩
    · refine ⟨call, inCalls, sec, Or.inr ?_, asserts⟩
      cases call <;> simp_all [ListenerCall.deleted]
    · refine ⟨call, inCalls, sec, Or.inl ?_, asserts⟩
      cases call <;> simp_all [ListenerCall.added]
  · exact Or.inr done

/-- Over any run of listener transactions and any outcome of each ioctl, the
table keeps its invariant and the kernel holds exactly the active slots after
every commit. No write leaves an array: the only stop is an assertion of the
code on one of the sections it was given. -/
theorem slotTable_agrees_with_kernel (ramBase : Nat) (ioctlOk : Nat → Bool)
    (transactions : List Transaction) :
    match runTransactions ioctlOk (gzvmCreateVm ramBase) transactions with
    | .ok h => HostOk h
    | .error fault => fault = .assertion ∧
        ∃ t ∈ transactions, ∃ call ∈ t.calls, ∃ sec,
          (call = .regionAdd sec ∨ call = .regionDel sec) ∧ Asserts t.machine ramBase sec := by
  -- The invariant of the run: the host is sound, the queues are empty and the
  -- RAM base has not moved.
  have general : ∀ (h : Host), HostOk h → h.state.ramBase = ramBase →
      h.state.transactionAdd = [] → h.state.transactionDel = [] →
      match runTransactions ioctlOk h transactions with
      | .ok h => HostOk h
      | .error fault => fault = .assertion ∧
          ∃ t ∈ transactions, ∃ call ∈ t.calls, ∃ sec,
            (call = .regionAdd sec ∨ call = .regionDel sec) ∧ Asserts t.machine ramBase sec := by
    induction transactions with
    | nil => exact fun h ok _ _ _ => ok
    | cons t rest ih =>
      intro h ok baseEq noAdd noDel
      rcases t.run_spec ioctlOk ok noAdd noDel with
        ⟨⟨call, member, sec, isCall, asserts⟩, fails⟩ | ⟨h', result, ok', base', add', del'⟩
      · rw [runTransactions, fails, bind_error]
        exact ⟨rfl, t, by simp, call, member, sec, isCall, baseEq ▸ asserts⟩
      · rw [runTransactions, result, bind_ok]
        have later := ih h' ok' (base'.trans baseEq) add' del'
        split at later
        · exact later
        · obtain ⟨isAssertion, u, member, found⟩ := later
          exact ⟨isAssertion, u, List.mem_cons_of_mem _ member, found⟩
  exact general (gzvmCreateVm ramBase) (hostOk_createVm ramBase) rfl rfl rfl

end QemuGzvm.Gzvm
