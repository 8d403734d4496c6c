import QemuGzvm.Memory.FlatviewRoot
import QemuGzvm.Memory.Topology
import Mathlib.Data.List.Nodup

/-!
Contract: the callbacks of a topology update, seen by a listener.

Owns:
- `replay`, the registered sections a list of callbacks leaves, and `ReplayTakes`,
  that each callback can be taken where it is issued;
- what each pass does to the registered sections;
- the replay theorem: on a listener that has the old view registered, the two
  passes leave the new view registered;
- the same along any commits.
-/

namespace QemuGzvm.Memory

/-! ### Replaying the callbacks -/

def MemoryRegionSection.Apart (a b : MemoryRegionSection) : Prop :=
  a.offsetWithinAddressSpace + a.size ≤ b.offsetWithinAddressSpace ∨
    b.offsetWithinAddressSpace + b.size ≤ a.offsetWithinAddressSpace

/-- What a callback makes of the set of registered sections. -/
def ListenerEvent.register (registered : Set MemoryRegionSection) :
    ListenerEvent → Set MemoryRegionSection
  | .regionAdd sec => insert sec registered
  | .regionDel sec => registered \ {sec}
  | _ => registered

/-- A listener can take the callback: only registered sections are deleted, and
no added section overlaps a registered one. -/
def ListenerEvent.Takes (registered : Set MemoryRegionSection) : ListenerEvent → Prop
  | .regionAdd sec => ∀ other ∈ registered, sec.Apart other
  | .regionDel sec => sec ∈ registered
  | _ => True

def replay (registered : Set MemoryRegionSection) (events : List ListenerEvent) :
    Set MemoryRegionSection :=
  events.foldl ListenerEvent.register registered

def ReplayTakes (registered : Set MemoryRegionSection) : List ListenerEvent → Prop
  | [] => True
  | event :: events => event.Takes registered ∧ ReplayTakes (event.register registered) events

def sections (view : FlatView) : Set MemoryRegionSection :=
  {sec | ∃ fr ∈ view, sectionFromFlatRange fr = sec}

theorem sections_cons (fr : FlatRange) (view : FlatView) :
    sections (fr :: view) = insert (sectionFromFlatRange fr) (sections view) := by
  ext sec
  simp [sections, eq_comm]

theorem replayTakes_append (registered : Set MemoryRegionSection)
    (first second : List ListenerEvent) :
    ReplayTakes registered (first ++ second) ↔
      ReplayTakes registered first ∧ ReplayTakes (replay registered first) second := by
  induction first generalizing registered with
  | nil => simp [ReplayTakes, replay]
  | cons event events ih =>
    simp only [List.cons_append, ReplayTakes, ih, and_assoc]
    rfl

/-- The callbacks can all be taken, and lead from the one set of sections to the other. -/
structure Replays (events : List ListenerEvent) (registered after : Set MemoryRegionSection) :
    Prop where
  replayEq : replay registered events = after
  takes : ReplayTakes registered events

theorem Replays.append {first second : List ListenerEvent}
    {registered middle after : Set MemoryRegionSection} (one : Replays first registered middle)
    (two : Replays second middle after) : Replays (first ++ second) registered after := by
  constructor
  · rw [← two.replayEq, ← one.replayEq]
    exact List.foldl_append
  · rw [replayTakes_append, one.replayEq]
    exact ⟨one.takes, two.takes⟩

def ListenerEvent.Neutral : ListenerEvent → Prop
  | .regionAdd _ | .regionDel _ => False
  | _ => True

theorem replays_neutral (registered : Set MemoryRegionSection) (events : List ListenerEvent)
    (neutral : ∀ event ∈ events, event.Neutral) : Replays events registered registered := by
  induction events with
  | nil => exact ⟨rfl, trivial⟩
  | cons event events ih =>
    have rest := ih fun later member =>
      neutral later (List.mem_cons_of_mem _ member)
    have first := neutral event (by simp)
    cases event <;> first | exact absurd first id | exact ⟨rest.1, trivial, rest.2⟩

def ListenerEvent.IsCoalescedIo : ListenerEvent → Prop
  | .coalescedIoAdd _ _ _ | .coalescedIoDel _ _ _ => True
  | _ => False

variable (regions : Regions) {event : ListenerEvent} {newView oldView view : FlatView}
  {registered : Set MemoryRegionSection} {fr frnew frold : FlatRange} {script : List DiffStep}
  {new old : BitVec 8} {sec : MemoryRegionSection}

theorem ListenerEvent.IsCoalescedIo.neutral (io : event.IsCoalescedIo) : event.Neutral := by
  cases event <;> trivial

theorem coalescedIoNotify_isCoalescedIo (fr : FlatRange) (cmr : AddrRange) (add : Bool)
    (member : event ∈ flatRangeCoalescedIoNotify fr cmr add) : event.IsCoalescedIo := by
  simp only [flatRangeCoalescedIoNotify] at member
  split at member
  · simp at member
  · split at member
    all_goals
      rw [List.mem_singleton.mp member]
      trivial

theorem coalescedIoDel_isCoalescedIo (fr : FlatRange)
    (member : event ∈ flatRangeCoalescedIoDel regions fr) : event.IsCoalescedIo := by
  obtain ⟨cmr, _, inner⟩ := List.mem_flatMap.mp member
  exact coalescedIoNotify_isCoalescedIo fr cmr false inner

theorem coalescedIoAdd_isCoalescedIo (fr : FlatRange)
    (member : event ∈ flatRangeCoalescedIoAdd regions fr) : event.IsCoalescedIo := by
  obtain ⟨cmr, _, inner⟩ := List.mem_flatMap.mp member
  exact coalescedIoNotify_isCoalescedIo fr cmr true inner

theorem passDelete_replay (frold : FlatRange)
    (present : sectionFromFlatRange frold ∈ registered) :
    Replays (passDelete regions false frold) registered
      (registered \ {sectionFromFlatRange frold}) := by
  have io := replays_neutral registered (flatRangeCoalescedIoDel regions frold) fun event member =>
    (coalescedIoDel_isCoalescedIo regions frold member).neutral
  exact io.append ⟨rfl, present, trivial⟩

theorem passAdd_replay (frnew : FlatRange)
    (free : ∀ other ∈ registered, (sectionFromFlatRange frnew).Apart other) :
    Replays (passAdd regions true frnew) registered
      (insert (sectionFromFlatRange frnew) registered) := by
  have io := replays_neutral (insert (sectionFromFlatRange frnew) registered)
    (flatRangeCoalescedIoAdd regions frnew) fun event member =>
      (coalescedIoAdd_isCoalescedIo regions frnew member).neutral
  exact Replays.append ⟨rfl, free, trivial⟩ io

theorem passKeep_replay (adding : Bool) (frold frnew : FlatRange)
    (registered : Set MemoryRegionSection) :
    Replays (passKeep adding frold frnew) registered registered := by
  apply replays_neutral
  intro event member
  unfold passKeep at member
  split at member
  · simp only [List.mem_append, List.mem_singleton, List.mem_ite_nil_right] at member
    rcases member with (rfl | ⟨_, rfl⟩) | ⟨_, rfl⟩ <;> trivial
  · simp at member

def DiffStep.dropped : DiffStep → Option FlatRange
  | .drop frold => some frold
  | _ => none

def DiffStep.taken : DiffStep → Option FlatRange
  | .take frnew => some frnew
  | _ => none

/-- The deleting pass takes away what the script drops, and finds all of it. -/
theorem deletePass_replay (script : List DiffStep)
    (registered : Set MemoryRegionSection)
    (distinct : ((script.filterMap DiffStep.dropped).map sectionFromFlatRange).Nodup)
    (present : ∀ fr ∈ script.filterMap DiffStep.dropped, sectionFromFlatRange fr ∈ registered) :
    Replays (script.flatMap (DiffStep.events regions false)) registered
      (registered \ sections (script.filterMap DiffStep.dropped)) := by
  induction script generalizing registered with
  | nil => exact ⟨by simp [replay, sections], trivial⟩
  | cons step script ih =>
    cases step with
    | drop frold =>
      simp only [List.filterMap_cons, DiffStep.dropped, List.map_cons, List.nodup_cons,
        List.mem_cons, forall_eq_or_imp] at distinct present
      have rest := ih (registered \ {sectionFromFlatRange frold}) distinct.2
        fun fr member => ⟨present.2 fr member, fun same =>
          distinct.1 (List.mem_map.mpr ⟨fr, member, same⟩)⟩
      rw [Set.sdiff_sdiff, Set.singleton_union, ← sections_cons] at rest
      exact (passDelete_replay regions frold present.1).append rest
    | keep frold frnew =>
      exact (passKeep_replay false frold frnew registered).append (ih registered distinct present)
    | take frnew => exact ih registered distinct present

/-- The adding pass registers what the script takes, provided nothing taken
overlaps what is registered before or what is taken earlier. -/
theorem addPass_replay (script : List DiffStep)
    (registered : Set MemoryRegionSection)
    (apart : (script.filterMap DiffStep.taken).Pairwise fun a b =>
      (sectionFromFlatRange b).Apart (sectionFromFlatRange a))
    (free : ∀ fr ∈ script.filterMap DiffStep.taken, ∀ other ∈ registered,
      (sectionFromFlatRange fr).Apart other) :
    Replays (script.flatMap (DiffStep.events regions true)) registered
      (registered ∪ sections (script.filterMap DiffStep.taken)) := by
  induction script generalizing registered with
  | nil => exact ⟨by simp [replay, sections], trivial⟩
  | cons step script ih =>
    cases step with
    | drop frold => exact ih registered apart free
    | keep frold frnew =>
      exact (passKeep_replay true frold frnew registered).append (ih registered apart free)
    | take frnew =>
      simp only [List.filterMap_cons, DiffStep.taken, List.pairwise_cons, List.mem_cons,
        forall_eq_or_imp] at apart free
      have rest := ih (insert (sectionFromFlatRange frnew) registered) apart.2
        fun fr member other isOther => by
          rcases isOther with rfl | earlier
          · exact apart.1 fr member
          · exact free.2 fr member other earlier
      rw [Set.insert_union, ← Set.union_insert, ← sections_cons] at rest
      exact (passAdd_replay regions frnew free.1).append rest

/-! ### What the two passes announce -/

/-- The section a `region_add` or `region_nop` announces. -/
def ListenerEvent.announced : ListenerEvent → Option MemoryRegionSection
  | .regionAdd sec | .regionNop sec => some sec
  | _ => none

theorem ListenerEvent.IsCoalescedIo.announced (io : event.IsCoalescedIo) :
    event.announced = none := by
  cases event <;> first | rfl | exact io.elim

theorem announced_coalesced {events : List ListenerEvent}
    (io : ∀ event ∈ events, event.IsCoalescedIo) :
    events.filterMap ListenerEvent.announced = [] :=
  List.filterMap_eq_nil_iff.mpr fun event member => (io event member).announced

theorem DiffStep.events_announced (adding : Bool) (step : DiffStep) :
    (step.events regions adding).filterMap ListenerEvent.announced =
      if adding then (step.new.map sectionFromFlatRange).toList else [] := by
  cases step with
  | drop frold =>
    have io := announced_coalesced fun _ member =>
      coalescedIoDel_isCoalescedIo regions frold member
    cases adding <;> simp [events, passDelete, io, ListenerEvent.announced, new]
  | keep frold frnew =>
    cases adding <;> simp [events, passKeep, new, ListenerEvent.announced]
  | take frnew =>
    have io := announced_coalesced fun _ member =>
      coalescedIoAdd_isCoalescedIo regions frnew member
    cases adding <;> simp [events, passAdd, io, ListenerEvent.announced, new]

/-- The callbacks announce the ranges of the new view, each once and in order. -/
theorem setFlatview_announced (oldView newView : FlatView) :
    (addressSpaceSetFlatview regions oldView newView).filterMap ListenerEvent.announced =
      newView.map sectionFromFlatRange := by
  have silent : ∀ script : List DiffStep,
      (script.flatMap (DiffStep.events regions false)).filterMap ListenerEvent.announced = [] := by
    intro script
    simp [List.filterMap_flatMap, DiffStep.events_announced]
  have announces : ∀ script : List DiffStep,
      (script.flatMap (DiffStep.events regions true)).filterMap ListenerEvent.announced =
        (script.filterMap DiffStep.new).map sectionFromFlatRange := by
    intro script
    rw [List.filterMap_flatMap, List.map_filterMap, List.filterMap_eq_flatMap_toList]
    simp [DiffStep.events_announced]
  simp [addressSpaceSetFlatview, topologyPass_eq_script, silent, announces, diffScript_new]

theorem count_announced (events : List ListenerEvent) (sec : MemoryRegionSection) :
    events.count (.regionAdd sec) + events.count (.regionNop sec) =
      (events.filterMap ListenerEvent.announced).count sec := by
  induction events with
  | nil => rfl
  | cons event events ih =>
    cases event <;>
      simp [List.count_cons, List.filterMap_cons, ListenerEvent.announced,
        ← ih] <;>
      omega

/-! ### The replay theorem -/

theorem Ordered.sections_apart (ordered : Ordered view) {a b : FlatRange} (aMember : a ∈ view)
    (bMember : b ∈ view) (different : a ≠ b) :
    (sectionFromFlatRange a).Apart (sectionFromFlatRange b) := by
  have aStart := ordered.section_start aMember
  have bStart := ordered.section_start bMember
  have aSize := ordered.section_size aMember
  have bSize := ordered.section_size bMember
  unfold MemoryRegionSection.Apart
  rcases ordered.disjoint aMember bMember different with before | after <;>
    simp only [addrrangeEnd] at *
  · omega
  · omega

/-- Where a projection of a list has no duplicates, a value has one origin. -/
theorem origin_unique {α β : Type} {project : α → Option β} {items : List α}
    (distinct : (items.filterMap project).Nodup) {a b : α} {value : β} (aMember : a ∈ items)
    (bMember : b ∈ items) (aValue : project a = some value) (bValue : project b = some value) :
    a = b := by
  induction items with
  | nil => simp at aMember
  | cons item items ih =>
    grind

theorem mem_dropped :
    fr ∈ script.filterMap DiffStep.dropped ↔ DiffStep.drop fr ∈ script := by
  rw [List.mem_filterMap]
  constructor
  · rintro ⟨step, member, project⟩
    cases step <;> simp_all [DiffStep.dropped]
  · exact fun member => ⟨_, member, rfl⟩

theorem mem_taken :
    fr ∈ script.filterMap DiffStep.taken ↔ DiffStep.take fr ∈ script := by
  rw [List.mem_filterMap]
  constructor
  · rintro ⟨step, member, project⟩
    cases step <;> simp_all [DiffStep.taken]
  · exact fun member => ⟨_, member, rfl⟩

/-- Of a projection that says more often nothing, the values are fewer. -/
theorem filterMap_sublist_filterMap {α β : Type} {less more : α → Option β}
    (le : ∀ a, less a = none ∨ less a = more a) (items : List α) :
    (items.filterMap less).Sublist (items.filterMap more) := by
  induction items with
  | nil => exact List.Sublist.refl _
  | cons item items ih =>
    grind

theorem dropped_sublist (oldView newView : FlatView) :
    ((diffScript oldView newView).filterMap DiffStep.dropped).Sublist oldView := by
  conv_rhs => rw [← diffScript_old oldView newView]
  apply filterMap_sublist_filterMap
  rintro (_ | _ | _) <;> simp [DiffStep.dropped, DiffStep.old]

theorem taken_sublist (oldView newView : FlatView) :
    ((diffScript oldView newView).filterMap DiffStep.taken).Sublist newView := by
  conv_rhs => rw [← diffScript_new oldView newView]
  apply filterMap_sublist_filterMap
  rintro (_ | _ | _) <;> simp [DiffStep.taken, DiffStep.new]

theorem Ordered.sections_nodup (ordered : Ordered view) :
    (view.map sectionFromFlatRange).Nodup :=
  List.Nodup.map_on (fun _ aMember _ bMember same => ordered.eq_of_section_start aMember bMember
    (congrArg MemoryRegionSection.offsetWithinAddressSpace same)) ordered.nodup

/-- No dropped range starts where a kept one starts. -/
theorem Ordered.dropped_ne_kept (oldOrdered : Ordered oldView) {gone : FlatRange}
    (dropped : DiffStep.drop gone ∈ diffScript oldView newView)
    (kept : DiffStep.keep frold frnew ∈ diffScript oldView newView) :
    (sectionFromFlatRange gone).offsetWithinAddressSpace ≠
      (sectionFromFlatRange frold).offsetWithinAddressSpace := by
  have oldDistinct : ((diffScript oldView newView).filterMap DiffStep.old).Nodup := by
    rw [diffScript_old]
    exact oldOrdered.nodup
  intro sameStart
  cases oldOrdered.eq_of_section_start (mem_old_iff.mpr (Or.inl dropped))
    (mem_old_iff.mpr (Or.inr ⟨frnew, kept⟩)) sameStart
  exact DiffStep.noConfusion (origin_unique oldDistinct dropped kept rfl rfl)

/-- What is left between the passes: the kept ranges. -/
theorem sections_diff_dropped (oldOrdered : Ordered oldView) :
    sections oldView \ sections ((diffScript oldView newView).filterMap DiffStep.dropped) =
      {sec | ∃ frold frnew, DiffStep.keep frold frnew ∈ diffScript oldView newView ∧
        sectionFromFlatRange frnew = sec} := by
  ext sec
  constructor
  · rintro ⟨⟨fr, member, rfl⟩, notDropped⟩
    rcases mem_old_iff.mp member with dropped | ⟨frnew, kept⟩
    · exact absurd ⟨fr, mem_dropped.mpr dropped, rfl⟩ notDropped
    · exact ⟨fr, frnew, kept, (flatrangeEqual_section (diffScript_keep_equal kept)).symm⟩
  · rintro ⟨frold, frnew, kept, rfl⟩
    rw [← flatrangeEqual_section (diffScript_keep_equal kept)]
    refine ⟨⟨frold, mem_old_iff.mpr (Or.inr ⟨frnew, kept⟩), rfl⟩, ?_⟩
    rintro ⟨other, otherDropped, same⟩
    exact oldOrdered.dropped_ne_kept (mem_dropped.mp otherDropped) kept
      (congrArg MemoryRegionSection.offsetWithinAddressSpace same)

theorem setFlatview_replay (oldOrdered : Ordered oldView)
    (newOrdered : Ordered newView) :
    Replays (addressSpaceSetFlatview regions oldView newView) (sections oldView)
      (sections newView) := by
  have newDistinct : ((diffScript oldView newView).filterMap DiffStep.new).Nodup := by
    rw [diffScript_new]
    exact newOrdered.nodup
  have oldSublist := dropped_sublist oldView newView
  have newSublist := taken_sublist oldView newView
  have deleted := deletePass_replay regions (diffScript oldView newView)
    (sections oldView) (oldOrdered.sections_nodup.sublist (oldSublist.map _))
    fun fr member => ⟨fr, oldSublist.subset member, rfl⟩
  rw [sections_diff_dropped oldOrdered] at deleted
  have added := addPass_replay regions (diffScript oldView newView)
    {sec | ∃ frold frnew, DiffStep.keep frold frnew ∈ diffScript oldView newView ∧
        sectionFromFlatRange frnew = sec}
    (by
      refine (newOrdered.nodup.sublist newSublist).imp_of_mem ?_
      intro a b aMember bMember different
      exact newOrdered.sections_apart (newSublist.subset bMember) (newSublist.subset aMember)
        different.symm)
    (by
      rintro fr member other ⟨frold, frnew, inScript, rfl⟩
      refine newOrdered.sections_apart (newSublist.subset member)
        (mem_new_iff.mpr (Or.inr ⟨frold, inScript⟩)) ?_
      rintro rfl
      exact DiffStep.noConfusion
        (origin_unique newDistinct (mem_taken.mp member) inScript rfl rfl))
  rw [addressSpaceSetFlatview, topologyPass_eq_script, topologyPass_eq_script]
  convert deleted.append added using 1
  ext sec
  constructor
  · rintro ⟨fr, member, rfl⟩
    rcases mem_new_iff.mp member with taken | ⟨frold, kept⟩
    · exact Or.inr ⟨fr, mem_taken.mpr taken, rfl⟩
    · exact Or.inl ⟨frold, fr, kept, rfl⟩
  · rintro (⟨frold, frnew, inScript, rfl⟩ | ⟨fr, member, rfl⟩)
    · exact ⟨frnew, mem_new_iff.mpr (Or.inr ⟨frold, inScript⟩), rfl⟩
    · exact ⟨fr, newSublist.subset member, rfl⟩

/-! ### Dirty logging -/

def ListenerEvent.IsLog : ListenerEvent → Prop
  | .logStart _ _ _ | .logStop _ _ _ => True
  | _ => False

theorem ListenerEvent.IsCoalescedIo.not_isLog (io : event.IsCoalescedIo) : ¬event.IsLog := by
  cases event <;> first | exact id | exact io.elim

theorem DiffStep.isLog_keep {regions : Regions} {adding : Bool} {step : DiffStep}
    (isLog : event.IsLog) (member : event ∈ step.events regions adding) :
    ∃ frold frnew, step = .keep frold frnew ∧ event ∈ passKeep adding frold frnew := by
  cases step with
  | drop frold =>
    exfalso
    cases adding with
    | true => simp [events, passDelete] at member
    | false =>
      simp only [events, passDelete, Bool.false_eq_true, if_false, List.mem_append,
        List.mem_singleton] at member
      rcases member with io | rfl
      · exact (coalescedIoDel_isCoalescedIo regions frold io).not_isLog isLog
      · exact isLog
  | keep frold frnew => exact ⟨frold, frnew, rfl, member⟩
  | take frnew =>
    exfalso
    cases adding with
    | false => simp [events, passAdd] at member
    | true =>
      simp only [events, passAdd, if_true, List.mem_append, List.mem_singleton] at member
      rcases member with rfl | io
      · exact isLog
      · exact (coalescedIoAdd_isCoalescedIo regions frnew io).not_isLog isLog

theorem mem_setFlatview_log (oldOrdered : Ordered oldView)
    (newOrdered : Ordered newView) (isLog : event.IsLog) :
    event ∈ addressSpaceSetFlatview regions oldView newView ↔
      ∃ frold ∈ oldView, ∃ frnew ∈ newView, flatrangeEqual frold frnew = true ∧
        event ∈ passKeep true frold frnew := by
  simp only [addressSpaceSetFlatview, topologyPass_eq_script, List.mem_append, List.mem_flatMap]
  constructor
  · rintro (⟨step, inScript, member⟩ | ⟨step, inScript, member⟩)
    · obtain ⟨frold, frnew, rfl, inKeep⟩ := step.isLog_keep isLog member
      simp [passKeep] at inKeep
    · obtain ⟨frold, frnew, rfl, inKeep⟩ := step.isLog_keep isLog member
      obtain ⟨oldMember, newMember, equal⟩ :=
        (mem_diffScript_keep oldOrdered newOrdered).mp inScript
      exact ⟨frold, oldMember, frnew, newMember, equal, inKeep⟩
  · rintro ⟨frold, oldMember, frnew, newMember, equal, inKeep⟩
    exact Or.inr ⟨.keep frold frnew,
      (mem_diffScript_keep oldOrdered newOrdered).mpr ⟨oldMember, newMember, equal⟩, inKeep⟩

theorem logStart_mem_passKeep :
    ListenerEvent.logStart sec old new ∈ passKeep true frold frnew ↔
      (sec = sectionFromFlatRange frnew ∧ old = frold.dirtyLogMask ∧ new = frnew.dirtyLogMask) ∧
        new &&& ~~~old ≠ 0 := by
  simp only [passKeep, if_true, List.mem_append, List.mem_singleton, List.mem_ite_nil_right,
    reduceCtorEq, and_false, or_false, false_or, ListenerEvent.logStart.injEq]
  constructor
  · rintro ⟨gained, rfl, rfl, rfl⟩
    exact ⟨⟨rfl, rfl, rfl⟩, gained⟩
  · rintro ⟨⟨rfl, rfl, rfl⟩, gained⟩
    exact ⟨gained, rfl, rfl, rfl⟩

theorem logStop_mem_passKeep :
    ListenerEvent.logStop sec old new ∈ passKeep true frold frnew ↔
      (sec = sectionFromFlatRange frnew ∧ old = frold.dirtyLogMask ∧ new = frnew.dirtyLogMask) ∧
        old &&& ~~~new ≠ 0 := by
  simp only [passKeep, if_true, List.mem_append, List.mem_singleton, List.mem_ite_nil_right,
    reduceCtorEq, and_false, or_false, false_or, ListenerEvent.logStop.injEq]
  constructor
  · rintro ⟨lost, rfl, rfl, rfl⟩
    exact ⟨⟨rfl, rfl, rfl⟩, lost⟩
  · rintro ⟨⟨rfl, rfl, rfl⟩, lost⟩
    exact ⟨lost, rfl, rfl, rfl⟩

/-- The callbacks of one topology update, on a listener that has the sections of
the old view registered: each can be taken where it is issued, they leave the
sections of the new view, each new range is announced once, and dirty logging
follows the bits gained and lost by the ranges in both views. -/
theorem setFlatview_replays_exactly (regions : Regions) {oldView newView : FlatView}
    (oldOrdered : Ordered oldView) (newOrdered : Ordered newView) :
    ReplayTakes (sections oldView) (addressSpaceSetFlatview regions oldView newView) ∧
      replay (sections oldView) (addressSpaceSetFlatview regions oldView newView) =
        sections newView ∧
      (∀ fr ∈ newView,
        (addressSpaceSetFlatview regions oldView newView).count
            (.regionAdd (sectionFromFlatRange fr)) +
          (addressSpaceSetFlatview regions oldView newView).count
            (.regionNop (sectionFromFlatRange fr)) = 1) ∧
      (∀ sec old new,
        .logStart sec old new ∈ addressSpaceSetFlatview regions oldView newView ↔
          ∃ frold ∈ oldView, ∃ frnew ∈ newView, flatrangeEqual frold frnew = true ∧
            (sec = sectionFromFlatRange frnew ∧ old = frold.dirtyLogMask ∧
              new = frnew.dirtyLogMask) ∧ new &&& ~~~old ≠ 0) ∧
      ∀ sec old new,
        .logStop sec old new ∈ addressSpaceSetFlatview regions oldView newView ↔
          ∃ frold ∈ oldView, ∃ frnew ∈ newView, flatrangeEqual frold frnew = true ∧
            (sec = sectionFromFlatRange frnew ∧ old = frold.dirtyLogMask ∧
              new = frnew.dirtyLogMask) ∧ old &&& ~~~new ≠ 0 := by
  obtain ⟨replayEq, takes⟩ := setFlatview_replay regions oldOrdered newOrdered
  refine ⟨takes, replayEq, ?_, ?_, ?_⟩
  · intro fr member
    rw [count_announced, setFlatview_announced]
    exact List.count_eq_one_of_mem newOrdered.sections_nodup (List.mem_map_of_mem member)
  · intro sec old new
    have isLog : (ListenerEvent.logStart sec old new).IsLog := trivial
    rw [mem_setFlatview_log regions oldOrdered newOrdered isLog]
    simp only [logStart_mem_passKeep]
  · intro sec old new
    have isLog : (ListenerEvent.logStop sec old new).IsLog := trivial
    rw [mem_setFlatview_log regions oldOrdered newOrdered isLog]
    simp only [logStop_mem_passKeep]

/-- A range that gains a dirty-log client while its neighbour is replaced. -/
theorem setFlatview_replays_exactly_replaced :
    let kept : FlatRange := ⟨1, 0, ⟨0, 4096⟩, 0, true, false, false, false⟩
    let logged : FlatRange := { kept with dirtyLogMask := 1 }
    let gone : FlatRange := ⟨2, 0, ⟨4096, 4096⟩, 0, true, false, false, false⟩
    let come : FlatRange := { gone with mr := 3 }
    replay (sections [kept, gone]) (addressSpaceSetFlatview (fun _ => {}) [kept, gone]
        [logged, come]) = sections [logged, come] ∧
      .logStart (sectionFromFlatRange logged) 0 1 ∈
        addressSpaceSetFlatview (fun _ => {}) [kept, gone] [logged, come] := by
  intro kept logged gone come
  have oldOrdered : Ordered [kept, gone] := by
    constructor <;> simp [kept, gone, addrrangeEnd]
  have newOrdered : Ordered [logged, come] := by
    constructor <;> simp [kept, gone, logged, come, addrrangeEnd]
  obtain ⟨_, replayEq, _, starts, _⟩ :=
    setFlatview_replays_exactly (fun _ => {}) oldOrdered newOrdered
  refine ⟨replayEq, (starts _ _ _).mpr ⟨kept, by simp, logged, by simp, by decide, ?_⟩⟩
  exact ⟨⟨rfl, rfl, rfl⟩, by decide⟩

/-! ### Commits -/

/-- A commit, by the regions and the root of the address space. -/
def commit (s : FlatView × List ListenerEvent) (next : RegionGraph × MrId) :
    FlatView × List ListenerEvent :=
  let newView := next.1.generateMemoryTopology (next.1.memoryRegionGetFlatviewRoot next.2)
  (newView, s.2 ++ addressSpaceSetFlatview next.1.region s.1 newView)

/-- Over any commits, every section deleted is registered, every one added is apart from all
that are, and those of the last view are left. -/
theorem listeners_follow_commits (commits : List (RegionGraph × MrId)) :
    Replays (commits.foldl commit ([], [])).2 ∅ (sections (commits.foldl commit ([], [])).1) := by
  refine (List.foldlRecOn (motive := fun s => Ordered s.1 ∧ Replays s.2 ∅ (sections s.1))
    commits commit ?_ ?_).2
  · exact ⟨ordered_nil, by simp [replay, sections], trivial⟩
  · rintro s ⟨ordered, replays⟩ next _
    have newOrdered := next.1.ordered_topology
    exact ⟨newOrdered _, replays.append (setFlatview_replay _ ordered (newOrdered _))⟩

end QemuGzvm.Memory
