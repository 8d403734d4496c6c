import QemuGzvm.Library.SortedDiff
import QemuGzvm.Library.Transition
import QemuGzvm.Memory.FlatView
import Mathlib.Data.Prod.Lex

/-!
Contract: ioeventfds of memory regions and their replay to the listeners of an address
space (`memory_region_add_eventfd`, `memory_region_del_eventfd`,
`address_space_update_ioeventfds` and `address_space_add_del_ioeventfds` of
`system/memory.c`).

Owns:
- the order `memory_region_ioeventfd_before` and the sorted array of a region;
- the list of an address space, put together range by range, and the two-pointer loop
  over the old and the new list;
- runs of additions, deletions, topology changes and commits, with what a listener has
  registered.

The loop is right for strictly sorted lists. A list put together from the ranges of a
view is strictly sorted if every ioeventfd that shows in a range starts in it; one that
straddles the start of a range can be out of order, or listed twice.
-/

namespace QemuGzvm.Memory

open QemuGzvm.Library

/-! ### Order -/

def memoryRegionIoeventfdBefore (a b : MemoryRegionIoeventfd) : Bool :=
  if a.addr.start < b.addr.start then true
  else if a.addr.start > b.addr.start then false
  else if a.addr.size < b.addr.size then true
  else if a.addr.size > b.addr.size then false
  else if a.matchData.toNat < b.matchData.toNat then true
  else if a.matchData.toNat > b.matchData.toNat then false
  else if a.matchData && decide (a.data < b.data) then true
  else if a.matchData && decide (a.data > b.data) then false
  else decide (a.e < b.e)

/-- A size of zero stands for any size. -/
def memoryRegionIoeventfdEqual (a b : MemoryRegionIoeventfd) : Bool :=
  decide (a.addr.start = b.addr.start) &&
    (decide (a.addr.size = 0) || decide (b.addr.size = 0) ||
      (decide (a.addr.size = b.addr.size) && decide (a.matchData = b.matchData) &&
        (a.matchData && decide (a.data = b.data) || !a.matchData) && decide (a.e = b.e)))

/-! ### The array of a region -/

def ctz32 (value : UInt32) : Nat :=
  ((List.range 32).find? fun bit => value.toNat.testBit bit).getD 32

def bswap (bytes : Nat) (data : UInt64) : UInt64 :=
  (List.range bytes).foldl
    (fun swapped byte => swapped <<< 8 ||| (data >>> UInt64.ofNat (8 * byte) &&& 0xff)) 0

/-- `adjust_endianness`, with `size_memop(size) | MO_TE` for the operation: its lowest
three bits are `MO_SIZE`, bit 4 is `MO_BSWAP`. -/
def adjustEndianness (mr : MemoryRegion) (data : UInt64) (size : UInt32) : Checked UInt64 :=
  let op := ctz32 size
  if op.testBit 4 = mr.bigEndian then .ok data
  else
    match op % 8 with
    | 0 => .ok data
    | 1 => .ok (bswap 2 data)
    | 2 => .ok (bswap 4 data)
    | 3 => .ok (bswap 8 data)
    | _ => .error .assertion

/-- The entry that `memory_region_add_eventfd` and `memory_region_del_eventfd` look for. -/
def makeIoeventfd (mr : MemoryRegion) (addr : UInt64) (size : UInt32) (matchData : Bool)
    (data : UInt64) (e : Nat) : Checked MemoryRegionIoeventfd :=
  (if size ≠ 0 then adjustEndianness mr data size else .ok data).bind fun data =>
    .ok { addr := ⟨addr.toNat, size.toNat⟩, matchData, data, e }

def insertIoeventfd (mrfd : MemoryRegionIoeventfd) :
    List MemoryRegionIoeventfd → List MemoryRegionIoeventfd
  | [] => [mrfd]
  | fd :: rest =>
    if memoryRegionIoeventfdBefore mrfd fd then mrfd :: fd :: rest
    else fd :: insertIoeventfd mrfd rest

def removeIoeventfd (mrfd : MemoryRegionIoeventfd) :
    List MemoryRegionIoeventfd → Checked (List MemoryRegionIoeventfd)
  | [] => .error .assertion
  | fd :: rest =>
    if memoryRegionIoeventfdEqual mrfd fd then .ok rest
    else (removeIoeventfd mrfd rest).bind fun rest => .ok (fd :: rest)

def memoryRegionAddEventfd (mr : MemoryRegion) (addr : UInt64) (size : UInt32) (matchData : Bool)
    (data : UInt64) (e : Nat) : Checked MemoryRegion :=
  (makeIoeventfd mr addr size matchData data e).bind fun mrfd =>
    .ok { mr with ioeventfds := insertIoeventfd mrfd mr.ioeventfds }

def memoryRegionDelEventfd (mr : MemoryRegion) (addr : UInt64) (size : UInt32) (matchData : Bool)
    (data : UInt64) (e : Nat) : Checked MemoryRegion :=
  (makeIoeventfd mr addr size matchData data e).bind fun mrfd =>
    (removeIoeventfd mrfd mr.ioeventfds).bind fun ioeventfds => .ok { mr with ioeventfds }

/-! ### The list of an address space -/

/-- An ioeventfd of the range's region, where the range shows it. -/
def shiftIoeventfd (fr : FlatRange) (fd : MemoryRegionIoeventfd) : MemoryRegionIoeventfd :=
  { fd with addr := addrrangeShift fd.addr (fr.addr.start - fr.offsetInRegion) }

def rangeIoeventfds (regions : Regions) (fr : FlatRange) : List MemoryRegionIoeventfd :=
  ((regions fr.mr).ioeventfds.map (shiftIoeventfd fr)).filter fun fd =>
    addrrangeIntersects fr.addr fd.addr

def viewIoeventfds (regions : Regions) (view : FlatView) : List MemoryRegionIoeventfd :=
  view.flatMap (rangeIoeventfds regions)

/-- A callback is told the entry. Its address is converted by `int128_get64`, which
asserts that it fits. -/
def callListeners (change : Change MemoryRegionIoeventfd) (fd : MemoryRegionIoeventfd)
    (rest : Checked (List (Change MemoryRegionIoeventfd))) :
    Checked (List (Change MemoryRegionIoeventfd)) :=
  (int128Get64 fd.addr.start).bind fun _ => rest.bind fun rest => .ok (change :: rest)

def addDelIoeventfdsFrom : Nat → List MemoryRegionIoeventfd → List MemoryRegionIoeventfd →
    Checked (List (Change MemoryRegionIoeventfd))
  | 0, _, _ => .ok []
  | _ + 1, [], [] => .ok []
  | turns + 1, old :: olds, [] =>
    callListeners (.del old) old (addDelIoeventfdsFrom turns olds [])
  | turns + 1, [], new :: news =>
    callListeners (.add new) new (addDelIoeventfdsFrom turns [] news)
  | turns + 1, old :: olds, new :: news =>
    if memoryRegionIoeventfdBefore old new then
      callListeners (.del old) old (addDelIoeventfdsFrom turns olds (new :: news))
    else if memoryRegionIoeventfdBefore new old then
      callListeners (.add new) new (addDelIoeventfdsFrom turns (old :: olds) news)
    else addDelIoeventfdsFrom turns olds news

def addressSpaceAddDelIoeventfds (fdsNew fdsOld : List MemoryRegionIoeventfd) :
    Checked (List (Change MemoryRegionIoeventfd)) :=
  addDelIoeventfdsFrom (fdsOld.length + fdsNew.length) fdsOld fdsNew

/-- The callbacks of an update of an address space that has a listener for ioeventfds,
and its new list. -/
def addressSpaceUpdateIoeventfds (regions : Regions) (view : FlatView)
    (ioeventfds : List MemoryRegionIoeventfd) :
    Checked (List (Change MemoryRegionIoeventfd) × List MemoryRegionIoeventfd) :=
  let fdsNew := viewIoeventfds regions view
  (addressSpaceAddDelIoeventfds fdsNew ioeventfds).bind fun changes => .ok (changes, fdsNew)

/-! ### Runs -/

structure IoeventfdRun where
  regions : Regions
  view : FlatView
  ordered : Ordered view
  ioeventfds : List MemoryRegionIoeventfd := []
  registered : Multiset MemoryRegionIoeventfd := 0

inductive IoeventfdOp where
  | addEventfd (mr : MrId) (addr : UInt64) (size : UInt32) (matchData : Bool) (data : UInt64)
      (e : Nat)
  | delEventfd (mr : MrId) (addr : UInt64) (size : UInt32) (matchData : Bool) (data : UInt64)
      (e : Nat)
  /-- A topology change: the address space gets this view. -/
  | topology (view : FlatView) (ordered : Ordered view)
  /-- `address_space_update_ioeventfds` at the end of a transaction. -/
  | commit

def IoeventfdRun.next (run : IoeventfdRun) : IoeventfdOp → Option IoeventfdRun
  | .addEventfd mr addr size matchData data e =>
    (memoryRegionAddEventfd (run.regions mr) addr size matchData data e).toOption.map fun after =>
      { run with regions := Function.update run.regions mr after }
  | .delEventfd mr addr size matchData data e =>
    (memoryRegionDelEventfd (run.regions mr) addr size matchData data e).toOption.map fun after =>
      { run with regions := Function.update run.regions mr after }
  | .topology view ordered => some { run with view, ordered }
  | .commit =>
    (addressSpaceUpdateIoeventfds run.regions run.view run.ioeventfds).toOption.map
      fun (changes, ioeventfds) =>
        { run with ioeventfds, registered := Change.applyAll run.registered changes }

structure IoeventfdConfig where
  regions : Regions
  none : ∀ mr, (regions mr).ioeventfds = []
  view : FlatView
  ordered : Ordered view

def IoeventfdConfig.system (config : IoeventfdConfig) : LabelledSystem IoeventfdRun IoeventfdOp :=
  .ofNext { regions := config.regions, view := config.view, ordered := config.ordered }
    IoeventfdRun.next

/-- The ioeventfds of the view's ranges that intersect their range. -/
def visibleIoeventfds (regions : Regions) (view : FlatView) : Set MemoryRegionIoeventfd :=
  { fd | ∃ fr ∈ view, ∃ own ∈ (regions fr.mr).ioeventfds, fd = shiftIoeventfd fr own ∧
    addrrangeIntersects fr.addr fd.addr = true }

/-- A commit from here issues only callbacks that fit what the listener has registered,
and leaves registered what the view shows. -/
def CommitExact (run : IoeventfdRun) : Prop :=
  ∃ changes ioeventfds,
    addressSpaceUpdateIoeventfds run.regions run.view run.ioeventfds = .ok (changes, ioeventfds) ∧
    Change.FitAll run.registered changes ∧
    ∀ fd, fd ∈ Change.applyAll run.registered changes ↔
      fd ∈ visibleIoeventfds run.regions run.view

/-- The condition on a commit: what shows in a range starts in it, no two ioeventfds of
a region that shows are the same but for data that is not compared, and neither are an
old and a new one. -/
structure CommitClean (run : IoeventfdRun) : Prop where
  inside : ∀ fr ∈ run.view, ∀ fd ∈ rangeIoeventfds run.regions fr, fr.addr.start ≤ fd.addr.start
  distinct : ∀ fr ∈ run.view, (run.regions fr.mr).ioeventfds.Pairwise fun a b =>
    memoryRegionIoeventfdBefore a b = true ∨ memoryRegionIoeventfdBefore b a = true
  agree : ∀ old ∈ run.ioeventfds, ∀ new ∈ viewIoeventfds run.regions run.view,
    memoryRegionIoeventfdBefore old new = false → memoryRegionIoeventfdBefore new old = false →
      old = new

def CommitsClean (run : IoeventfdRun) : IoeventfdOp → Prop
  | .commit => CommitClean run
  | _ => True

/-! ### Sorted lists -/

/-- What the order compares: data only where it is matched. -/
def ioeventfdKey (fd : MemoryRegionIoeventfd) : Int ×ₗ Int ×ₗ Nat ×ₗ Nat ×ₗ Nat :=
  toLex (fd.addr.start, toLex (fd.addr.size, toLex (fd.matchData.toNat,
    toLex (if fd.matchData then fd.data.toNat else 0, fd.e))))

theorem ioeventfdBefore_iff (a b : MemoryRegionIoeventfd) :
    memoryRegionIoeventfdBefore a b = true ↔ ioeventfdKey a < ioeventfdKey b := by
  have lt_iff : ∀ x y : UInt64, x < y ↔ x.toNat < y.toNat := fun _ _ => UInt64.lt_iff_toNat_lt
  simp only [ioeventfdKey, Prod.Lex.toLex_lt_toLex, memoryRegionIoeventfdBefore, lt_iff, gt_iff_lt]
  cases a.matchData <;> cases b.matchData <;> simp <;> grind

theorem ioeventfdBefore_irrefl (a : MemoryRegionIoeventfd) :
    memoryRegionIoeventfdBefore a a = false := by
  rw [Bool.eq_false_iff, ne_eq, ioeventfdBefore_iff]
  exact lt_irrefl _

/-- A range shifts all its ioeventfds by the same distance. -/
theorem ioeventfdBefore_shift (fr : FlatRange) (a b : MemoryRegionIoeventfd) :
    memoryRegionIoeventfdBefore (shiftIoeventfd fr a) (shiftIoeventfd fr b) =
      memoryRegionIoeventfdBefore a b := by
  grind [memoryRegionIoeventfdBefore, shiftIoeventfd, addrrangeShift]

def IoeventfdsSorted (fds : List MemoryRegionIoeventfd) : Prop :=
  fds.Pairwise fun a b => memoryRegionIoeventfdBefore b a = false

theorem ioeventfdBefore_eq_false_iff (a b : MemoryRegionIoeventfd) :
    memoryRegionIoeventfdBefore a b = false ↔ ioeventfdKey b ≤ ioeventfdKey a := by
  rw [Bool.eq_false_iff, ne_eq, ioeventfdBefore_iff, not_lt]

variable {fd : MemoryRegionIoeventfd} {fds : List MemoryRegionIoeventfd} {regions : Regions}
  {view : FlatView} {mrfd : MemoryRegionIoeventfd} {fr : FlatRange} {run : IoeventfdRun}

theorem mem_insertIoeventfd (member : fd ∈ insertIoeventfd mrfd fds) : fd = mrfd ∨ fd ∈ fds := by
  induction fds with
  | nil => exact Or.inl (List.mem_singleton.mp member)
  | cons head rest ih =>
    rw [insertIoeventfd] at member
    split at member
    · exact List.mem_cons.mp member
    · grind

theorem insertIoeventfd_sorted (mrfd : MemoryRegionIoeventfd) (sorted : IoeventfdsSorted fds) :
    IoeventfdsSorted (insertIoeventfd mrfd fds) := by
  induction fds with
  | nil => exact List.pairwise_singleton _ _
  | cons head rest ih =>
    obtain ⟨below, restSorted⟩ := List.pairwise_cons.mp sorted
    rw [insertIoeventfd]
    split
    · next first =>
      refine List.pairwise_cons.mpr ⟨fun fd member => ?_, sorted⟩
      rw [ioeventfdBefore_iff] at first
      rw [ioeventfdBefore_eq_false_iff]
      rcases List.mem_cons.mp member with rfl | later
      · exact first.le
      · exact first.le.trans ((ioeventfdBefore_eq_false_iff _ _).mp (below fd later))
    · next notFirst =>
      refine List.pairwise_cons.mpr ⟨fun fd member => ?_, ih restSorted⟩
      rcases mem_insertIoeventfd member with rfl | later
      · simpa using notFirst
      · exact below fd later

theorem removeIoeventfd_sublist {left : List MemoryRegionIoeventfd}
    (removed : removeIoeventfd mrfd fds = .ok left) : left.Sublist fds := by
  induction fds generalizing left with
  | nil => cases removed
  | cons fd rest ih =>
    rw [removeIoeventfd] at removed
    split at removed
    · cases removed
      exact List.sublist_cons_self fd rest
    · obtain ⟨fewer, removing, kept⟩ := bind_eq_ok.mp removed
      cases kept
      exact (ih removing).cons_cons fd

/-! ### The list of a view -/

theorem mem_rangeIoeventfds :
    fd ∈ rangeIoeventfds regions fr ↔
      (∃ own ∈ (regions fr.mr).ioeventfds, fd = shiftIoeventfd fr own) ∧
        addrrangeIntersects fr.addr fd.addr = true := by
  rw [rangeIoeventfds, List.mem_filter, List.mem_map]
  simp only [eq_comm (b := fd)]

theorem mem_viewIoeventfds :
    fd ∈ viewIoeventfds regions view ↔ fd ∈ visibleIoeventfds regions view := by
  rw [viewIoeventfds, List.mem_flatMap]
  show (∃ fr ∈ view, fd ∈ rangeIoeventfds regions fr) ↔
    ∃ fr ∈ view, ∃ own ∈ (regions fr.mr).ioeventfds, fd = shiftIoeventfd fr own ∧
      addrrangeIntersects fr.addr fd.addr = true
  simp only [mem_rangeIoeventfds]
  grind

/-- What shows in a range and starts in it or behind its start, starts before its end. -/
theorem start_lt_end_of_intersects {range tmp : AddrRange} (nonempty : 0 < range.size)
    (intersects : addrrangeIntersects range tmp = true) (low : range.start ≤ tmp.start) :
    tmp.start < addrrangeEnd range := by
  simp only [addrrangeIntersects, Bool.or_eq_true, addrrangeContains_iff, addrrangeEnd] at *
  omega

theorem rangeIoeventfds_sorted (sorted : IoeventfdsSorted (regions fr.mr).ioeventfds)
    (distinct : (regions fr.mr).ioeventfds.Pairwise fun a b =>
      memoryRegionIoeventfdBefore a b = true ∨ memoryRegionIoeventfdBefore b a = true) :
    StrictlySorted memoryRegionIoeventfdBefore (rangeIoeventfds regions fr) := by
  apply List.Pairwise.filter
  apply List.pairwise_map.mpr
  apply (sorted.and distinct).imp
  rintro a b ⟨notBefore, before⟩
  rw [ioeventfdBefore_shift]
  exact before.resolve_right (by simp [notBefore])

/-- The list of a view is strictly sorted if what shows in a range starts in it. -/
theorem viewIoeventfds_sorted (ordered : Ordered view)
    (sorted : ∀ mr, IoeventfdsSorted (regions mr).ioeventfds)
    (inside : ∀ fr ∈ view, ∀ fd ∈ rangeIoeventfds regions fr, fr.addr.start ≤ fd.addr.start)
    (distinct : ∀ fr ∈ view, (regions fr.mr).ioeventfds.Pairwise fun a b =>
      memoryRegionIoeventfdBefore a b = true ∨ memoryRegionIoeventfdBefore b a = true) :
    StrictlySorted memoryRegionIoeventfdBefore (viewIoeventfds regions view) := by
  induction view with
  | nil => exact List.Pairwise.nil
  | cons fr rest ih =>
    have later : StrictlySorted memoryRegionIoeventfdBefore (viewIoeventfds regions rest) :=
      ih ordered.tail
        (fun other member => inside other (List.mem_cons_of_mem _ member))
        (fun other member => distinct other (List.mem_cons_of_mem _ member))
    show StrictlySorted memoryRegionIoeventfdBefore
      (rangeIoeventfds regions fr ++ viewIoeventfds regions rest)
    refine List.pairwise_append.mpr
      ⟨rangeIoeventfds_sorted (sorted fr.mr) (distinct fr List.mem_cons_self), later, ?_⟩
    intro fd member other otherMember
    obtain ⟨range, inRest, inRange⟩ := List.mem_flatMap.mp otherMember
    rw [memoryRegionIoeventfdBefore, if_pos]
    calc fd.addr.start
      _ < addrrangeEnd fr.addr := start_lt_end_of_intersects
          (ordered.nonempty fr List.mem_cons_self) (mem_rangeIoeventfds.mp member).2
          (inside fr List.mem_cons_self fd member)
      _ ≤ range.addr.start := (List.pairwise_cons.mp ordered.apart).1 range inRest
      _ ≤ other.addr.start := inside range (List.mem_cons_of_mem _ inRest) other inRange

def StartsFit (fds : List MemoryRegionIoeventfd) : Prop :=
  ∀ fd ∈ fds, 0 ≤ fd.addr.start ∧ fd.addr.start < 2 ^ 64

theorem viewIoeventfds_startsFit (ordered : Ordered view)
    (inside : ∀ fr ∈ view, ∀ fd ∈ rangeIoeventfds regions fr, fr.addr.start ≤ fd.addr.start) :
    StartsFit (viewIoeventfds regions view) := by
  intro fd member
  obtain ⟨fr, inView, inRange⟩ := List.mem_flatMap.mp member
  have low := inside fr inView fd inRange
  have high := start_lt_end_of_intersects (ordered.nonempty fr inView)
    (mem_rangeIoeventfds.mp inRange).2 low
  have first := ordered.low fr inView
  have last := ordered.high fr inView
  omega

theorem callListeners_ok {change : Change MemoryRegionIoeventfd}
    {rest : List (Change MemoryRegionIoeventfd)}
    (fits : 0 ≤ fd.addr.start ∧ fd.addr.start < 2 ^ 64) :
    callListeners change fd (.ok rest) = .ok (change :: rest) := by
  rw [callListeners, int128Get64, if_pos fits, bind_ok, bind_ok]

/-- The loop is the difference of the two lists. -/
theorem addDelIoeventfdsFrom_eq (turns : Nat) {olds news : List MemoryRegionIoeventfd}
    (oldFit : StartsFit olds) (newFit : StartsFit news) :
    addDelIoeventfdsFrom turns olds news =
      .ok (mergeDiff memoryRegionIoeventfdBefore turns olds news) := by
  induction turns generalizing olds news with
  | zero => rfl
  | succ turns ih =>
    cases olds with
    | nil =>
      cases news with
      | nil => rfl
      | cons new news =>
        obtain ⟨first, later⟩ := List.forall_mem_cons.mp newFit
        rw [addDelIoeventfdsFrom, ih oldFit later, callListeners_ok first]
        rfl
    | cons old olds =>
      obtain ⟨oldFirst, oldLater⟩ := List.forall_mem_cons.mp oldFit
      cases news with
      | nil =>
        rw [addDelIoeventfdsFrom, ih oldLater newFit,
          callListeners_ok oldFirst]
        rfl
      | cons new news =>
        obtain ⟨newFirst, newLater⟩ := List.forall_mem_cons.mp newFit
        rw [addDelIoeventfdsFrom, ih oldLater newFit,
          ih oldFit newLater, ih oldLater newLater,
          callListeners_ok oldFirst, callListeners_ok newFirst, mergeDiff]
        split
        · rfl
        · split <;> rfl

/-! ### Every run -/

/-- The listener has registered the list of the address space, which is strictly sorted,
and the arrays of the regions are sorted. -/
structure IoeventfdInv (run : IoeventfdRun) : Prop where
  arrays : ∀ mr, IoeventfdsSorted (run.regions mr).ioeventfds
  sorted : StrictlySorted memoryRegionIoeventfdBefore run.ioeventfds
  fit : StartsFit run.ioeventfds
  registered : run.registered = ↑run.ioeventfds

theorem IoeventfdInv.commit (inv : IoeventfdInv run) (clean : CommitClean run) : ∃ changes,
      addressSpaceUpdateIoeventfds run.regions run.view run.ioeventfds =
        .ok (changes, viewIoeventfds run.regions run.view) ∧
      Change.Leads run.registered changes ↑(viewIoeventfds run.regions run.view) := by
  have newSorted := viewIoeventfds_sorted run.ordered inv.arrays clean.inside clean.distinct
  have newFit := viewIoeventfds_startsFit run.ordered clean.inside
  refine ⟨mergeDiff memoryRegionIoeventfdBefore
    (run.ioeventfds.length + (viewIoeventfds run.regions run.view).length) run.ioeventfds
    (viewIoeventfds run.regions run.view), ?_, ?_⟩
  · rw [addressSpaceUpdateIoeventfds, addressSpaceAddDelIoeventfds,
      addDelIoeventfdsFrom_eq _ inv.fit newFit, bind_ok]
  · rw [inv.registered]
    exact SortedDiff.mergeDiff_leads ioeventfdBefore_irrefl inv.sorted newSorted clean.agree

theorem IoeventfdInv.update (inv : IoeventfdInv run) {mr : MrId} {after : MemoryRegion}
    (sorted : IoeventfdsSorted after.ioeventfds) :
    IoeventfdInv { run with regions := Function.update run.regions mr after } := by
  grind [IoeventfdInv]

theorem IoeventfdInv.step {config : IoeventfdConfig} (run : IoeventfdRun) (op : IoeventfdOp)
    (after : IoeventfdRun) (inv : IoeventfdInv run) (clean : CommitsClean run op)
    (taken : config.system.step run op after) : IoeventfdInv after := by
  change run.next op = some after at taken
  cases op with
  | addEventfd mr addr size matchData data e =>
    obtain ⟨region, adding, rfl⟩ := Option.map_eq_some_iff.mp taken
    obtain ⟨mrfd, -, made⟩ := bind_eq_ok.mp (toOption_eq_some.mp adding)
    cases made
    exact inv.update (insertIoeventfd_sorted mrfd (inv.arrays mr))
  | delEventfd mr addr size matchData data e =>
    obtain ⟨region, deleting, rfl⟩ := Option.map_eq_some_iff.mp taken
    obtain ⟨mrfd, -, made⟩ := bind_eq_ok.mp (toOption_eq_some.mp deleting)
    obtain ⟨left, removed, kept⟩ := bind_eq_ok.mp made
    cases kept
    exact inv.update ((inv.arrays mr).sublist (removeIoeventfd_sublist removed))
  | topology view ordered =>
    cases taken
    exact ⟨inv.arrays, inv.sorted, inv.fit, inv.registered⟩
  | commit =>
    obtain ⟨changes, updated, leads⟩ := inv.commit clean
    simp only [IoeventfdRun.next, updated] at taken
    cases taken
    exact ⟨inv.arrays, viewIoeventfds_sorted run.ordered inv.arrays clean.inside clean.distinct,
      viewIoeventfds_startsFit run.ordered clean.inside, leads.2⟩

/-- In every run whose commits are clean, every clean commit is exact. -/
theorem ioeventfd_replay_exact_of_clean {config : IoeventfdConfig} {run : IoeventfdRun}
    (reached : config.system.ReachedBy CommitsClean run) (clean : CommitClean run) :
    CommitExact run := by
  have inv : IoeventfdInv run := by
    apply reached.invariant IoeventfdInv
    · intro start initial
      rw [show start = _ from initial]
      exact ⟨fun mr => by rw [config.none mr]; exact List.Pairwise.nil, List.Pairwise.nil,
        fun fd member => absurd member List.not_mem_nil, rfl⟩
    · exact IoeventfdInv.step
  obtain ⟨changes, updated, fits, applied⟩ := inv.commit clean
  refine ⟨changes, _, updated, fits, fun fd => ?_⟩
  rw [applied, Multiset.mem_coe, mem_viewIoeventfds]

/-- A range of region `mr` from `start` to `stop`, where the region starts at 0. -/
private def shownRange (mr : MrId) (start stop : Nat) : FlatRange :=
  { mr, offsetInRegion := start, addr := ⟨start, stop - start⟩, dirtyLogMask := 0,
    romdMode := true, readonly := false, nonvolatile := false, unmergeable := false }

/-- One region that is all visible, with one ioeventfd. -/
theorem ioeventfd_replay_exact_of_clean_single :
    ∃ (config : IoeventfdConfig) (run : IoeventfdRun),
      config.system.ReachedBy CommitsClean run ∧ CommitClean run ∧ CommitExact run ∧
        (viewIoeventfds run.regions run.view).length = 1 := by
  let config : IoeventfdConfig :=
    { regions := fun _ => {}
      none := fun _ => rfl
      view := [shownRange 0 0 0x1000]
      ordered := ⟨by decide, by decide, by decide, List.pairwise_singleton _ _⟩ }
  let fd : MemoryRegionIoeventfd := { addr := ⟨0x10, 4⟩, matchData := true, data := 1, e := 7 }
  let run : IoeventfdRun :=
    { regions := Function.update config.regions 0 { ioeventfds := [fd] }
      view := config.view
      ordered := config.ordered }
  have reached : config.system.ReachedBy CommitsClean run :=
    .step (.addEventfd 0 0x10 4 true 1 7) (.start rfl) trivial rfl
  have clean : CommitClean run :=
    { inside := by decide
      distinct := by decide
      agree := fun old member => absurd member List.not_mem_nil }
  exact ⟨config, run, reached, clean, ioeventfd_replay_exact_of_clean reached clean, by decide⟩

/-- Another region hides two bytes in the middle of the ioeventfd's range, so that it
shows in two ranges of its region: it is listed and added twice. -/
theorem ioeventfd_added_twice :
    ∃ (config : IoeventfdConfig) (run : IoeventfdRun) (fd : MemoryRegionIoeventfd),
      config.system.ReachedBy (fun _ _ => True) run ∧
      addressSpaceUpdateIoeventfds run.regions run.view run.ioeventfds =
        .ok ([.add fd, .add fd], [fd, fd]) ∧ ¬ CommitExact run := by
  let config : IoeventfdConfig :=
    { regions := fun _ => {}
      none := fun _ => rfl
      view := [shownRange 0 0 0x10, shownRange 1 0x10 0x12, shownRange 0 0x12 0x20]
      ordered := ⟨by decide, by decide, by decide, by decide⟩ }
  let fd : MemoryRegionIoeventfd := { addr := ⟨0xe, 8⟩, matchData := false, data := 0, e := 7 }
  let run : IoeventfdRun :=
    { regions := Function.update config.regions 0 { ioeventfds := [fd] }
      view := config.view
      ordered := config.ordered }
  have reached : config.system.ReachedBy (fun _ _ => True) run :=
    .step (.addEventfd 0 0xe 8 false 0 7) (.start rfl) trivial rfl
  have updated : addressSpaceUpdateIoeventfds run.regions run.view run.ioeventfds =
      .ok ([.add fd, .add fd], [fd, fd]) := by decide
  refine ⟨config, run, fd, reached, updated, ?_⟩
  rintro ⟨changes, ioeventfds, result, fits, -⟩
  cases result
  exact fits.2.1 (Multiset.mem_cons_self fd 0)

end QemuGzvm.Memory
