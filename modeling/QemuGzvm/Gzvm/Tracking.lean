import QemuGzvm.Gzvm.Commit
import QemuGzvm.Memory.Replay

/-!
Contract: the set of slot contents the table holds while every ioctl succeeds.

Owns:
- `Tracks`, the abstract state of the listener: a set of slot contents no two of
  which start at one address;
- what a section, a queue, a commit and a topology update do to that set;
- `removes`, when the deletion of a section takes a slot away.

A deletion is filtered by the region as it is when the queue is drained, so the
machine of the commit stands in every statement here.
-/

namespace QemuGzvm.Gzvm

open QemuGzvm.Library
open QemuGzvm.Memory

def everyIoctl : Nat → Bool := fun _ => true

/-- The active slots say `contents` to the kernel, and start apart. -/
structure Tracks (h : Host) (contents : Set KernelSlot) : Prop where
  ok : HostOk h
  members : ∀ slot, slot ∈ h.state.registered ↔ slot ∈ contents
  starts : (h.state.registered.map KernelSlot.start).Nodup

def Removes (m : Machine) (ramBase : Nat) (sec : MemoryRegionSection) (slot : KernelSlot) : Prop :=
  sectionAccepted m ramBase sec = true ∧ slot.SamePlace (sectionContents m sec)

section Sections

variable {h : Host} {contents : Set KernelSlot} {m : Machine} {sec : MemoryRegionSection}

section

variable (tracks : Tracks h contents)
include tracks

theorem Tracks.congr {other : Set KernelSlot}
    (same : ∀ slot, slot ∈ contents ↔ slot ∈ other) : Tracks h other :=
  ⟨tracks.ok, fun slot => (tracks.members slot).trans (same slot), tracks.starts⟩

theorem Tracks.withQueues (add del : List MemoryRegionSection) :
    Tracks { h with state := { h.state with transactionAdd := add, transactionDel := del } }
      contents :=
  ⟨tracks.ok.withQueues add del, tracks.members, tracks.starts⟩

theorem Tracks.delete (safe : ¬Asserts m h.state.ramBase sec) :
    ∃ h', gzvmSetPhysMemLocked m everyIoctl h sec false = .ok h' ∧
      SameQueues h.state h'.state ∧
      Tracks h' {slot | slot ∈ contents ∧ ¬Removes m h.state.ramBase sec slot} := by
  obtain ⟨fits, rejected | ⟨accepted, ram, backed⟩⟩ := not_asserts_iff.mp safe
  · refine ⟨h, setPhysMem_rejected fits rejected false, ⟨rfl, rfl, rfl⟩, tracks.congr ?_⟩
    intro slot
    simp [Removes, rejected]
  · obtain ⟨h', result, ok', queues, deleted, _⟩ :=
      setPhysMem_accepted everyIoctl tracks.ok fits accepted backed false
    obtain ⟨unmatched, removed⟩ := deleted rfl
    refine ⟨h', result, queues, ?_⟩
    by_cases found : Registered m h sec
    · obtain ⟨gone, gonePlace, perm⟩ := removed rfl found
      have starts : ((gone :: h'.state.registered).map KernelSlot.start).Nodup :=
        (perm.map KernelSlot.start).nodup_iff.mp tracks.starts
      rw [List.map_cons, List.nodup_cons] at starts
      refine ⟨ok', fun slot => ?_, starts.2⟩
      have before : slot ∈ contents ↔ slot = gone ∨ slot ∈ h'.state.registered := by
        rw [← tracks.members, perm.mem_iff, List.mem_cons]
      simp only [Set.mem_ofPred_eq, before, Removes, accepted, true_and]
      constructor
      · intro member
        refine ⟨Or.inr member, fun place => starts.1 ?_⟩
        rw [gonePlace.1, ← place.1]
        exact List.mem_map_of_mem member
      · rintro ⟨rfl | member, kept⟩
        · exact absurd gonePlace kept
        · exact member
    · rw [unmatched found]
      refine tracks.congr fun slot => ⟨fun member => ⟨member, ?_⟩, fun member => member.1⟩
      exact fun removes => found ⟨slot, (tracks.members slot).mpr member, removes.2⟩

/-- An added section joins the set, if what starts where it starts is its own
contents already and a slot is left. -/
theorem Tracks.add (safe : ¬Asserts m h.state.ramBase sec)
    (agree : sectionAccepted m h.state.ramBase sec = true → ∀ slot ∈ contents,
      slot.start = sec.offsetWithinAddressSpace → slot = sectionContents m sec)
    (room : sectionAccepted m h.state.ramBase sec = true → sectionContents m sec ∉ contents →
      h.state.registered.length < gzvmMaxMemSlots) :
    ∃ h', gzvmSetPhysMemLocked m everyIoctl h sec true = .ok h' ∧
      SameQueues h.state h'.state ∧
      Tracks h' {slot | slot ∈ contents ∨
        sectionAccepted m h.state.ramBase sec = true ∧ slot = sectionContents m sec} := by
  obtain ⟨fits, rejected | ⟨accepted, ram, backed⟩⟩ := not_asserts_iff.mp safe
  · refine ⟨h, setPhysMem_rejected fits rejected true, ⟨rfl, rfl, rfl⟩, tracks.congr ?_⟩
    intro slot
    simp [rejected]
  · obtain ⟨h', result, ok', queues, _, registers⟩ :=
      setPhysMem_accepted everyIoctl tracks.ok fits accepted backed true
    obtain ⟨found, added, _⟩ := registers rfl
    refine ⟨h', result, queues, ?_⟩
    by_cases present : sectionContents m sec ∈ contents
    · rw [found ⟨_, (tracks.members _).mpr present, rfl, rfl, rfl⟩]
      refine tracks.congr fun slot => ⟨Or.inl, ?_⟩
      rintro (member | ⟨_, rfl⟩)
      · exact member
      · exact present
    · have fresh : ∀ slot ∈ h.state.registered, slot.start ≠ sec.offsetWithinAddressSpace := by
        intro slot member startEq
        have inContents := (tracks.members slot).mp member
        exact present (agree accepted slot inContents startEq ▸ inContents)
      have perm := added rfl (room accepted present) fun ⟨slot, member, place⟩ =>
        fresh slot member place.1
      refine ⟨ok', fun slot => ?_, ?_⟩
      · rw [perm.mem_iff, List.mem_cons, tracks.members, or_comm]
        simp [accepted]
      · refine (perm.map KernelSlot.start).nodup_iff.mpr ?_
        rw [List.map_cons, List.nodup_cons]
        refine ⟨fun member => ?_, tracks.starts⟩
        obtain ⟨slot, registered, startEq⟩ := List.mem_map.mp member
        exact fresh slot registered startEq

end

theorem setPhysMem_add_keeps (ok : HostOk h) (safe : ¬Asserts m h.state.ramBase sec) :
    ∃ h', gzvmSetPhysMemLocked m everyIoctl h sec true = .ok h' ∧ HostOk h' ∧
      SameQueues h.state h'.state ∧ ∀ slot ∈ h.state.registered, slot ∈ h'.state.registered := by
  obtain ⟨fits, rejected | ⟨accepted, ram, backed⟩⟩ := not_asserts_iff.mp safe
  · exact ⟨h, setPhysMem_rejected fits rejected true, ok, ⟨rfl, rfl, rfl⟩, fun _ => id⟩
  · obtain ⟨h', result, ok', queues, _, registers⟩ :=
      setPhysMem_accepted everyIoctl ok fits accepted backed true
    exact ⟨h', result, ok', queues, (registers rfl).2.2⟩

end Sections

/-! ### Queues and commits -/

variable {h : Host} {contents : Set KernelSlot} {ramBase : Nat}

section

variable (m : Machine) (sections : List MemoryRegionSection) (tracks : Tracks h contents)
  (safe : ∀ sec ∈ sections, ¬Asserts m h.state.ramBase sec)
include m sections tracks safe

theorem drainDeletes_tracks :
    ∃ h', drainSections m everyIoctl false h sections = .ok h' ∧ SameQueues h.state h'.state ∧
      Tracks h' {slot | slot ∈ contents ∧
        ∀ sec ∈ sections, ¬Removes m h.state.ramBase sec slot} := by
  induction sections generalizing h contents with
  | nil => exact ⟨h, rfl, ⟨rfl, rfl, rfl⟩, tracks.congr (by simp)⟩
  | cons sec rest ih =>
    obtain ⟨h', result, queues, tracks'⟩ := tracks.delete (safe sec (by simp))
    obtain ⟨last, lastResult, lastQueues, lastTracks⟩ := ih tracks'
      fun later member => queues.ramBase ▸ safe later (List.mem_cons_of_mem _ member)
    rw [drainSections, result, bind_ok]
    refine ⟨last, lastResult, queues.trans lastQueues, lastTracks.congr fun slot => ?_⟩
    simp only [Set.mem_ofPred_eq, queues.ramBase, List.mem_cons, forall_eq_or_imp, and_assoc]

/-- The additions of one queue. `bound` lists all they may register. -/
theorem drainAdds_tracks
    (apart : sections.Pairwise fun a b => a.offsetWithinAddressSpace ≠ b.offsetWithinAddressSpace)
    (agree : ∀ sec ∈ sections, sectionAccepted m h.state.ramBase sec = true →
      ∀ slot ∈ contents, slot.start = sec.offsetWithinAddressSpace → slot = sectionContents m sec)
    {bound : List KernelSlot} (boundLe : bound.length ≤ gzvmMaxMemSlots)
    (inBound : ∀ slot ∈ contents, slot ∈ bound)
    (addInBound : ∀ sec ∈ sections, sectionAccepted m h.state.ramBase sec = true →
      sectionContents m sec ∈ bound) :
    ∃ h', drainSections m everyIoctl true h sections = .ok h' ∧ SameQueues h.state h'.state ∧
      Tracks h' {slot | slot ∈ contents ∨ ∃ sec ∈ sections,
        sectionAccepted m h.state.ramBase sec = true ∧ slot = sectionContents m sec} := by
  induction sections generalizing h contents with
  | nil => exact ⟨h, rfl, ⟨rfl, rfl, rfl⟩, tracks.congr (by simp)⟩
  | cons sec rest ih =>
    have room : sectionAccepted m h.state.ramBase sec = true → sectionContents m sec ∉ contents →
        h.state.registered.length < gzvmMaxMemSlots := by
      intro accepted absent
      have distinct : (sectionContents m sec :: h.state.registered).Nodup :=
        List.nodup_cons.mpr ⟨fun member => absent ((tracks.members _).mp member),
          List.Nodup.of_map _ tracks.starts⟩
      have inside : sectionContents m sec :: h.state.registered ⊆ bound := by
        grind [Tracks]
      exact Nat.le_trans (List.subperm_of_subset distinct inside).length_le boundLe
    obtain ⟨h', result, queues, tracks'⟩ := tracks.add (safe sec (by simp))
      (agree sec (by simp)) room
    rw [List.pairwise_cons] at apart
    obtain ⟨last, lastResult, lastQueues, lastTracks⟩ := ih tracks'
      (fun later member => queues.ramBase ▸ safe later (List.mem_cons_of_mem _ member))
      apart.2
      (by
        intro later member accepted slot inContents startEq
        rw [queues.ramBase] at accepted
        rcases inContents with earlier | ⟨_, rfl⟩
        · exact agree later (List.mem_cons_of_mem _ member) accepted slot earlier startEq
        · exact absurd startEq (apart.1 later member))
      (by
        rintro slot (earlier | ⟨accepted, rfl⟩)
        · exact inBound slot earlier
        · exact addInBound sec (by simp) accepted)
      (fun later member accepted =>
        addInBound later (List.mem_cons_of_mem _ member) (queues.ramBase ▸ accepted))
    rw [drainSections, result, bind_ok]
    refine ⟨last, lastResult, queues.trans lastQueues, lastTracks.congr fun slot => ?_⟩
    simp only [Set.mem_ofPred_eq, queues.ramBase, List.mem_cons, exists_eq_or_imp, or_assoc]

end

/-- Between transactions both queues are empty. -/
structure Idle (h : Host) (ramBase : Nat) : Prop where
  base : h.state.ramBase = ramBase
  add : h.state.transactionAdd = []
  del : h.state.transactionDel = []

theorem commit_deletes (m : Machine) (idle : Idle h ramBase) (tracks : Tracks h contents)
    (dels adds : List MemoryRegionSection) (safe : ∀ sec ∈ dels, ¬Asserts m ramBase sec) :
    ∃ deleted, gzvmRegionCommit m everyIoctl { h with state := { h.state with
          transactionAdd := adds, transactionDel := dels } } =
        drainSections m everyIoctl true deleted adds ∧
      Idle deleted ramBase ∧
      Tracks deleted {slot | slot ∈ contents ∧ ∀ gone ∈ dels, ¬Removes m ramBase gone slot} := by
  obtain ⟨rfl, noAdd, noDel⟩ := idle
  by_cases nothing : adds.isEmpty && dels.isEmpty
  · obtain ⟨rfl, rfl⟩ : adds = [] ∧ dels = [] := by simpa using nothing
    rw [gzvmRegionCommit, if_pos nothing]
    exact ⟨_, rfl, ⟨rfl, rfl, rfl⟩, (tracks.withQueues [] []).congr (by simp)⟩
  · simp only [gzvmRegionCommit, if_neg nothing, gzvmDrainUpdates, Bool.false_eq_true, if_false,
      if_true]
    obtain ⟨deleted, delResult, delQueues, delTracks⟩ := drainDeletes_tracks m dels
      (tracks.withQueues adds []) safe
    have addEq : deleted.state.transactionAdd = adds := delQueues.add
    rw [delResult, bind_ok, addEq]
    exact ⟨_, rfl, ⟨delQueues.ramBase, rfl, delQueues.del⟩,
      delTracks.withQueues [] deleted.state.transactionDel⟩

theorem drainAdds_keeps (m : Machine) (sections : List MemoryRegionSection) (ok : HostOk h)
    (safe : ∀ sec ∈ sections, ¬Asserts m h.state.ramBase sec) :
    ∃ h', drainSections m everyIoctl true h sections = .ok h' ∧ SameQueues h.state h'.state ∧
      ∀ slot ∈ h.state.registered, slot ∈ h'.state.registered := by
  induction sections generalizing h with
  | nil => exact ⟨h, rfl, ⟨rfl, rfl, rfl⟩, fun _ => id⟩
  | cons sec rest ih =>
    obtain ⟨h', result, ok', queues, keeps⟩ := setPhysMem_add_keeps ok (safe sec (by simp))
    obtain ⟨last, lastResult, lastQueues, lastKeeps⟩ := ih ok'
      fun later member => queues.ramBase ▸ safe later (List.mem_cons_of_mem _ member)
    rw [drainSections, result, bind_ok]
    exact ⟨last, lastResult, queues.trans lastQueues,
      fun slot member => lastKeeps slot (keeps slot member)⟩

def eligibleSections (m : Machine) (ramBase : Nat) (view : FlatView) : List MemoryRegionSection :=
  (view.map sectionFromFlatRange).filter fun sec => sectionAccepted m ramBase sec

/-- The slot contents the sections of a view ask for. -/
def eligibleContents (m : Machine) (ramBase : Nat) (view : FlatView) : Set KernelSlot :=
  {slot | slot ∈ (eligibleSections m ramBase view).map (sectionContents m)}

theorem mem_eligibleContents {m : Machine} {view : FlatView} {slot : KernelSlot} :
    slot ∈ eligibleContents m ramBase view ↔
      ∃ fr ∈ view, sectionAccepted m ramBase (sectionFromFlatRange fr) = true ∧
        slot = sectionContents m (sectionFromFlatRange fr) := by
  grind [eligibleContents, eligibleSections]

/-- The callbacks the GZVM listener has among those of a topology update. -/
def listenerCall : ListenerEvent → Option ListenerCall
  | .regionAdd sec => some (.regionAdd sec)
  | .regionDel sec => some (.regionDel sec)
  | _ => none

/-- A topology update from one view to the next, seen by the GZVM listener. -/
def topologyTransaction (m : Machine) (oldView newView : FlatView) : Transaction where
  machine := m
  calls := (addressSpaceSetFlatview m.regions oldView newView).filterMap listenerCall

/-! ### The queues of a topology update -/

theorem coalesced_listenerCall {events : List ListenerEvent}
    (io : ∀ event ∈ events, event.IsCoalescedIo) : events.filterMap listenerCall = [] := by
  refine List.filterMap_eq_nil_iff.mpr fun event member => ?_
  have isIo := io event member
  cases event <;> first | rfl | exact isIo.elim

theorem diffStep_calls (regions : Regions) (adding : Bool) (step : DiffStep) :
    (step.events regions adding).filterMap listenerCall =
      if adding then
        (step.taken.map fun fr => ListenerCall.regionAdd (sectionFromFlatRange fr)).toList
      else (step.dropped.map fun fr => ListenerCall.regionDel (sectionFromFlatRange fr)).toList := by
  cases step with
  | drop frold =>
    have io := coalesced_listenerCall fun _ member =>
      coalescedIoDel_isCoalescedIo regions frold member
    cases adding <;>
      simp [DiffStep.events, passDelete, io, listenerCall, DiffStep.dropped, DiffStep.taken]
  | keep frold frnew =>
    cases adding with
    | false => rfl
    | true =>
      refine List.filterMap_eq_nil_iff.mpr fun event member => ?_
      simp only [DiffStep.events, passKeep, if_true, List.mem_append, List.mem_singleton,
        List.mem_ite_nil_right] at member
      rcases member with (rfl | ⟨_, rfl⟩) | ⟨_, rfl⟩ <;> rfl
  | take frnew =>
    have io := coalesced_listenerCall fun _ member =>
      coalescedIoAdd_isCoalescedIo regions frnew member
    cases adding <;>
      simp [DiffStep.events, passAdd, io, listenerCall, DiffStep.dropped, DiffStep.taken]

/-- The sections the script drops, then those it takes. -/
theorem topologyTransaction_calls (m : Machine) (oldView newView : FlatView) :
    (topologyTransaction m oldView newView).calls =
      ((diffScript oldView newView).filterMap DiffStep.dropped).map
          (fun fr => ListenerCall.regionDel (sectionFromFlatRange fr)) ++
        ((diffScript oldView newView).filterMap DiffStep.taken).map
          (fun fr => ListenerCall.regionAdd (sectionFromFlatRange fr)) := by
  have deletes : ∀ script : List DiffStep,
      (script.flatMap (DiffStep.events m.regions false)).filterMap listenerCall =
        (script.filterMap DiffStep.dropped).map
          (fun fr => ListenerCall.regionDel (sectionFromFlatRange fr)) := by
    intro script
    rw [List.filterMap_flatMap, List.map_filterMap, List.filterMap_eq_flatMap_toList]
    simp [diffStep_calls]
  have adds : ∀ script : List DiffStep,
      (script.flatMap (DiffStep.events m.regions true)).filterMap listenerCall =
        (script.filterMap DiffStep.taken).map
          (fun fr => ListenerCall.regionAdd (sectionFromFlatRange fr)) := by
    intro script
    rw [List.filterMap_flatMap, List.map_filterMap, List.filterMap_eq_flatMap_toList]
    simp [diffStep_calls]
  simp [topologyTransaction, addressSpaceSetFlatview, topologyPass_eq_script, deletes, adds]

/-- The sections a topology update queues for deletion. -/
abbrev droppedSections (oldView newView : FlatView) : List MemoryRegionSection :=
  ((diffScript oldView newView).filterMap DiffStep.dropped).map sectionFromFlatRange

abbrev takenSections (oldView newView : FlatView) : List MemoryRegionSection :=
  ((diffScript oldView newView).filterMap DiffStep.taken).map sectionFromFlatRange

theorem topologyTransaction_deleted (m : Machine) (oldView newView : FlatView) :
    (topologyTransaction m oldView newView).calls.filterMap ListenerCall.deleted =
      droppedSections oldView newView := by
  rw [topologyTransaction_calls, List.filterMap_append, List.filterMap_map, List.filterMap_map]
  simp [Function.comp_def, ListenerCall.deleted]

theorem topologyTransaction_added (m : Machine) (oldView newView : FlatView) :
    (topologyTransaction m oldView newView).calls.filterMap ListenerCall.added =
      takenSections oldView newView := by
  rw [topologyTransaction_calls, List.filterMap_append, List.filterMap_map, List.filterMap_map]
  simp [Function.comp_def, ListenerCall.added]

def UpdateRemoves (m : Machine) (ramBase : Nat) (oldView newView : FlatView) (slot : KernelSlot) :
    Prop :=
  ∃ fr, DiffStep.drop fr ∈ diffScript oldView newView ∧
    Removes m ramBase (sectionFromFlatRange fr) slot

section Topology

variable (m : Machine) {oldView newView : FlatView}

theorem not_updateRemoves_iff (slot : KernelSlot) :
    (∀ gone ∈ droppedSections oldView newView, ¬Removes m ramBase gone slot) ↔
      ¬UpdateRemoves m ramBase oldView newView slot := by
  simp only [List.mem_map, mem_dropped, UpdateRemoves, not_exists, not_and, forall_exists_index,
    and_imp, forall_apply_eq_imp_iff₂]

theorem topologyTransaction_run (idle : Idle h ramBase) :
    (topologyTransaction m oldView newView).run everyIoctl h =
      gzvmRegionCommit m everyIoctl { h with state := { h.state with
        transactionAdd := takenSections oldView newView
        transactionDel := droppedSections oldView newView } } := by
  rw [Transaction.run, foldl_queue, idle.add, idle.del, List.nil_append, List.nil_append,
    topologyTransaction_deleted, topologyTransaction_added]
  rfl

/-- A topology update deletes first, and what is left of it are the additions. -/
theorem topology_deletes (idle : Idle h ramBase) (tracks : Tracks h contents)
    (safe : ∀ fr ∈ oldView ++ newView, ¬Asserts m ramBase (sectionFromFlatRange fr)) :
    ∃ deleted, (topologyTransaction m oldView newView).run everyIoctl h =
        drainSections m everyIoctl true deleted (takenSections oldView newView) ∧
      Idle deleted ramBase ∧
      Tracks deleted {slot | slot ∈ contents ∧ ¬UpdateRemoves m ramBase oldView newView slot} ∧
      ∀ sec ∈ takenSections oldView newView, ¬Asserts m ramBase sec := by
  have oldSublist := dropped_sublist oldView newView
  have newSublist := taken_sublist oldView newView
  obtain ⟨deleted, commitEq, idle', tracks'⟩ := commit_deletes m idle tracks
    (droppedSections oldView newView) (takenSections oldView newView)
    (List.forall_mem_map.mpr fun fr gone =>
      safe fr (List.mem_append_left _ (oldSublist.subset gone)))
  simp only [not_updateRemoves_iff] at tracks'
  rw [topologyTransaction_run m idle]
  exact ⟨deleted, commitEq, idle', tracks', List.forall_mem_map.mpr fun fr come =>
    safe fr (List.mem_append_right _ (newSublist.subset come))⟩

/-- A topology update, when what it leaves of the tracked contents belongs to the
new view: it ends with that and with the contents of the ranges taken. -/
theorem topology_tracks (idle : Idle h ramBase) (tracks : Tracks h contents)
    (newOrdered : Ordered newView)
    (safe : ∀ fr ∈ oldView ++ newView, ¬Asserts m ramBase (sectionFromFlatRange fr))
    (survive : ∀ slot ∈ contents, ¬UpdateRemoves m ramBase oldView newView slot →
      slot ∈ eligibleContents m ramBase newView)
    (room : (eligibleSections m ramBase newView).length ≤ gzvmMaxMemSlots) :
    ∃ h', (topologyTransaction m oldView newView).run everyIoctl h = .ok h' ∧ Idle h' ramBase ∧
      Tracks h' {slot | (slot ∈ contents ∧ ¬UpdateRemoves m ramBase oldView newView slot) ∨
        ∃ fr, DiffStep.take fr ∈ diffScript oldView newView ∧
          sectionAccepted m ramBase (sectionFromFlatRange fr) = true ∧
          slot = sectionContents m (sectionFromFlatRange fr)} := by
  have newSublist := taken_sublist oldView newView
  have boundLe : ((eligibleSections m ramBase newView).map (sectionContents m)).length ≤
      gzvmMaxMemSlots := by
    rw [List.length_map]
    exact room
  obtain ⟨deleted, runEq, ⟨rfl, noAdd, noDel⟩, delTracks, addSafe⟩ :=
    topology_deletes m idle tracks safe
  obtain ⟨added, addResult, addQueues, addTracks⟩ := drainAdds_tracks m
    (takenSections oldView newView) delTracks addSafe
    (by
      rw [List.pairwise_map]
      refine (newOrdered.nodup.sublist newSublist).imp_of_mem ?_
      intro a b aMember bMember different sameStart
      exact different (newOrdered.eq_of_section_start (newSublist.subset aMember)
        (newSublist.subset bMember) sameStart))
    (by
      intro sec member accepted slot survivor startEq
      obtain ⟨fr, come, rfl⟩ := List.mem_map.mp member
      obtain ⟨other, otherMember, _, rfl⟩ :=
        mem_eligibleContents.mp (survive slot survivor.1 survivor.2)
      rw [newOrdered.eq_of_section_start otherMember (newSublist.subset come) startEq])
    boundLe (fun slot survivor => survive slot survivor.1 survivor.2)
    (by
      intro sec member accepted
      obtain ⟨fr, come, rfl⟩ := List.mem_map.mp member
      exact mem_eligibleContents.mpr ⟨fr, newSublist.subset come, accepted, rfl⟩)
  rw [runEq]
  refine ⟨added, addResult,
    ⟨addQueues.ramBase, addQueues.add.trans noAdd, addQueues.del.trans noDel⟩,
    addTracks.congr fun slot => or_congr Iff.rfl ⟨?_, ?_⟩⟩
  · rintro ⟨sec, member, accepted, rfl⟩
    obtain ⟨fr, come, rfl⟩ := List.mem_map.mp member
    exact ⟨fr, mem_taken.mp come, accepted, rfl⟩
  · rintro ⟨fr, come, accepted, rfl⟩
    exact ⟨_, List.mem_map_of_mem (mem_taken.mpr come), accepted, rfl⟩

theorem topology_keeps (idle : Idle h ramBase) (tracks : Tracks h contents)
    (safe : ∀ fr ∈ oldView ++ newView, ¬Asserts m ramBase (sectionFromFlatRange fr)) :
    ∃ h', (topologyTransaction m oldView newView).run everyIoctl h = .ok h' ∧
      h'.state.ramBase = ramBase ∧
      ∀ slot ∈ contents, ¬UpdateRemoves m ramBase oldView newView slot →
        slot ∈ h'.state.registered := by
  obtain ⟨deleted, runEq, ⟨rfl, _, _⟩, delTracks, addSafe⟩ :=
    topology_deletes m idle tracks safe
  obtain ⟨added, addResult, addQueues, keeps⟩ := drainAdds_keeps m _ delTracks.ok addSafe
  rw [runEq]
  exact ⟨added, addResult, addQueues.ramBase, fun slot member notRemoved =>
    keeps slot ((delTracks.members slot).mpr ⟨member, notRemoved⟩)⟩

end Topology

end QemuGzvm.Gzvm
