import QemuGzvm.Memory.Topology
import Mathlib.Data.List.TakeWhile

/-!
Contract: the callbacks a listener gets when it is registered or unregistered while an
address space is already built (`listener_add_address_space`,
`listener_del_address_space` of `system/memory.c`).

Owns:
- the two functions, but for the ioeventfds;
- the coalesced ranges they announce, beside those announced while a view is built.

The loop over the coalesced ranges of a region ends here at the first one that lies
outside of the flat range, where `flat_range_coalesced_io_notify` only skips it.
-/

namespace QemuGzvm.Memory

/-! ### Registration -/

def notifyListenerLoop (fr : FlatRange) (add : Bool) : List AddrRange → List ListenerEvent
  | [] => []
  | cmr :: rest =>
    let tmp := addrrangeShift cmr (fr.addr.start - fr.offsetInRegion)
    if !addrrangeIntersects tmp fr.addr then []
    else
      let tmp := addrrangeIntersection tmp fr.addr
      (if add then
        .coalescedIoAdd (sectionFromFlatRange fr) (int128GetLo tmp.start) (int128GetLo tmp.size)
      else
        .coalescedIoDel (sectionFromFlatRange fr) (int128GetLo tmp.start)
          (int128GetLo tmp.size)) :: notifyListenerLoop fr add rest

def flatRangeCoalescedIoNotifyListenerAddDel (regions : Regions) (fr : FlatRange) (add : Bool) :
    List ListenerEvent :=
  notifyListenerLoop fr add (regions fr.mr).coalesced

def listenerAddAddressSpace (regions : Regions) (view : FlatView) : List ListenerEvent :=
  view.flatMap fun fr =>
    [.regionAdd (sectionFromFlatRange fr)] ++
      flatRangeCoalescedIoNotifyListenerAddDel regions fr true ++
      (if fr.dirtyLogMask ≠ 0 then [.logStart (sectionFromFlatRange fr) 0 fr.dirtyLogMask] else [])

def listenerDelAddressSpace (regions : Regions) (view : FlatView) : List ListenerEvent :=
  view.flatMap fun fr =>
    (if fr.dirtyLogMask ≠ 0 then [.logStop (sectionFromFlatRange fr) fr.dirtyLogMask 0] else []) ++
      flatRangeCoalescedIoNotifyListenerAddDel regions fr false ++
      [.regionDel (sectionFromFlatRange fr)]

/-! ### The coalesced ranges announced -/

/-- The start and size passed to `coalesced_io_add`, or to `coalesced_io_del`. -/
def ListenerEvent.coalesced : Bool → ListenerEvent → Option (Nat × Nat)
  | true, .coalescedIoAdd _ start size => some (start, size)
  | false, .coalescedIoDel _ start size => some (start, size)
  | _, _ => none

def announcedPairs (add : Bool) (events : List ListenerEvent) : Set (Nat × Nat) :=
  { pair | pair ∈ events.filterMap (ListenerEvent.coalesced add) }

def coalescedShows (fr : FlatRange) (cmr : AddrRange) : Bool :=
  addrrangeIntersects (addrrangeShift cmr (fr.addr.start - fr.offsetInRegion)) fr.addr

def coalescedPair (fr : FlatRange) (cmr : AddrRange) : Nat × Nat :=
  let tmp := addrrangeIntersection (addrrangeShift cmr (fr.addr.start - fr.offsetInRegion)) fr.addr
  (int128GetLo tmp.start, int128GetLo tmp.size)

theorem notifyListenerLoop_pairs (fr : FlatRange) (add : Bool) (ranges : List AddrRange) :
    (notifyListenerLoop fr add ranges).filterMap (ListenerEvent.coalesced add) =
      (ranges.takeWhile (coalescedShows fr)).map (coalescedPair fr) := by
  induction ranges with
  | nil => rfl
  | cons cmr rest ih =>
    cases shows : coalescedShows fr cmr with
    | false =>
      rw [List.takeWhile_cons_of_neg (by simp [shows])]
      rw [coalescedShows] at shows
      simp [notifyListenerLoop, shows]
    | true =>
      rw [List.takeWhile_cons_of_pos shows, List.map_cons, ← ih]
      rw [coalescedShows] at shows
      cases add <;>
        simp [notifyListenerLoop, shows, ListenerEvent.coalesced, coalescedPair]

theorem coalescedIoNotify_pairs (fr : FlatRange) (cmr : AddrRange) (add : Bool) :
    (flatRangeCoalescedIoNotify fr cmr add).filterMap (ListenerEvent.coalesced add) =
      if coalescedShows fr cmr then [coalescedPair fr cmr] else [] := by
  grind [coalescedShows, flatRangeCoalescedIoNotify, ListenerEvent.coalesced, coalescedPair]

theorem mem_announcedPairs {add : Bool} {events : List ListenerEvent} {pair : Nat × Nat} :
    pair ∈ announcedPairs add events ↔ pair ∈ events.filterMap (ListenerEvent.coalesced add) :=
  Iff.rfl

section Views

variable (regions : Regions) (view : FlatView)

/-- What a listener is told that is registered on the built view, or unregistered. -/
theorem mem_late_iff {pair : Nat × Nat} :
    (pair ∈ announcedPairs true (listenerAddAddressSpace regions view) ↔
      ∃ fr ∈ view, ∃ cmr ∈ (regions fr.mr).coalesced.takeWhile (coalescedShows fr),
        coalescedPair fr cmr = pair) ∧
    (pair ∈ announcedPairs false (listenerDelAddressSpace regions view) ↔
      ∃ fr ∈ view, ∃ cmr ∈ (regions fr.mr).coalesced.takeWhile (coalescedShows fr),
        coalescedPair fr cmr = pair) := by
  constructor
  all_goals
    simp only [mem_announcedPairs, listenerAddAddressSpace, listenerDelAddressSpace,
      List.filterMap_flatMap, List.filterMap_append, flatRangeCoalescedIoNotifyListenerAddDel,
      notifyListenerLoop_pairs, List.mem_flatMap]
    refine exists_congr fun fr => and_congr_right fun _ => ?_
    split <;> simp [List.filterMap_cons, ListenerEvent.coalesced]

theorem diffScript_nil_right : diffScript view [] = view.map .drop := by
  have general : ∀ olds : FlatView, diffFrom olds.length olds [] = olds.map .drop := by
    intro olds
    induction olds with
    | nil => rfl
    | cons frold olds ih =>
      rw [List.length_cons, diffFrom, ih, List.map_cons]
  exact general view

/-- What a listener is told while the view is built, or torn down. -/
theorem mem_early_iff {pair : Nat × Nat} :
    (pair ∈ announcedPairs true (addressSpaceSetFlatview regions [] view) ↔
      ∃ fr ∈ view, ∃ cmr ∈ (regions fr.mr).coalesced, coalescedShows fr cmr = true ∧
        coalescedPair fr cmr = pair) ∧
    (pair ∈ announcedPairs false (addressSpaceSetFlatview regions view []) ↔
      ∃ fr ∈ view, ∃ cmr ∈ (regions fr.mr).coalesced, coalescedShows fr cmr = true ∧
        coalescedPair fr cmr = pair) := by
  simp only [mem_announcedPairs, addressSpaceSetFlatview, topologyPass_eq_script,
    diffScript_nil_left, diffScript_nil_right, List.flatMap_map, DiffStep.events, passAdd,
    passDelete]
  constructor <;>
    simp [List.filterMap_flatMap, flatRangeCoalescedIoAdd, List.filterMap_cons,
      flatRangeCoalescedIoDel, coalescedIoNotify_pairs, ListenerEvent.coalesced, eq_comm (a := pair)]

/-- Every range that shows and stands behind one that does not is announced all the
same, as the same pair of another range. -/
def NoneMissed : Prop :=
  ∀ fr ∈ view, ∀ cmr ∈ (regions fr.mr).coalesced.dropWhile (coalescedShows fr),
    coalescedShows fr cmr = true →
      ∃ other ∈ view, ∃ told ∈ (regions other.mr).coalesced.takeWhile (coalescedShows other),
        coalescedPair other told = coalescedPair fr cmr

/-- The set of pairs read off the prefixes is the set read off all ranges exactly if
none is missed. -/
theorem takeWhile_pairs_eq_iff :
    (∀ pair, (∃ fr ∈ view, ∃ cmr ∈ (regions fr.mr).coalesced.takeWhile (coalescedShows fr),
        coalescedPair fr cmr = pair) ↔
      ∃ fr ∈ view, ∃ cmr ∈ (regions fr.mr).coalesced, coalescedShows fr cmr = true ∧
        coalescedPair fr cmr = pair) ↔ NoneMissed regions view := by
  constructor
  · intro same fr inView cmr behind shows
    apply (same _).mpr
    exact ⟨fr, inView, cmr, (List.dropWhile_sublist _).subset behind, shows, rfl⟩
  · intro none pair
    constructor
    · rintro ⟨fr, inView, cmr, told, same⟩
      exact ⟨fr, inView, cmr, (List.takeWhile_sublist _).subset told, List.mem_takeWhile_imp told,
        same⟩
    · rintro ⟨fr, inView, cmr, listed, shows, same⟩
      rw [← List.takeWhile_append_dropWhile (p := coalescedShows fr)
        (l := (regions fr.mr).coalesced)] at listed
      rcases List.mem_append.mp listed with told | behind
      · exact ⟨fr, inView, cmr, told, same⟩
      · rw [← same]
        exact none fr inView cmr behind shows

end Views

end QemuGzvm.Memory
