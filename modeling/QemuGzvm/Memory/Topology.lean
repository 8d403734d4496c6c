import QemuGzvm.Memory.FlatView

/-!
Contract: the topology diff (`address_space_update_topology_pass` and the
coalesced-I/O notifications of `system/memory.c`).

Owns:
- the two-pointer loop over the old and the new view, which issues the callbacks
  of one pass;
- `DiffStep`, what one turn of the loop decides about the ranges it looks at, and
  that both passes make the same decisions;
- what the script of decisions says about the two views.

Order in the views matters only for `mem_diffScript_keep`: a range common to both
is kept.
-/

namespace QemuGzvm.Memory

inductive ListenerEvent where
  | regionAdd (sec : MemoryRegionSection)
  | regionDel (sec : MemoryRegionSection)
  | regionNop (sec : MemoryRegionSection)
  | logStart (sec : MemoryRegionSection) (old new : BitVec 8)
  | logStop (sec : MemoryRegionSection) (old new : BitVec 8)
  | coalescedIoAdd (sec : MemoryRegionSection) (start size : Nat)
  | coalescedIoDel (sec : MemoryRegionSection) (start size : Nat)
deriving DecidableEq, Repr

def flatRangeCoalescedIoNotify (fr : FlatRange) (cmr : AddrRange) (add : Bool) :
    List ListenerEvent :=
  let tmp := addrrangeShift cmr (fr.addr.start - fr.offsetInRegion)
  if !addrrangeIntersects tmp fr.addr then []
  else
    let tmp := addrrangeIntersection tmp fr.addr
    if add then
      [.coalescedIoAdd (sectionFromFlatRange fr) (int128GetLo tmp.start) (int128GetLo tmp.size)]
    else
      [.coalescedIoDel (sectionFromFlatRange fr) (int128GetLo tmp.start) (int128GetLo tmp.size)]

def flatRangeCoalescedIoDel (regions : Regions) (fr : FlatRange) : List ListenerEvent :=
  (regions fr.mr).coalesced.flatMap fun cmr => flatRangeCoalescedIoNotify fr cmr false

def flatRangeCoalescedIoAdd (regions : Regions) (fr : FlatRange) : List ListenerEvent :=
  (regions fr.mr).coalesced.flatMap fun cmr => flatRangeCoalescedIoNotify fr cmr true

/-- The body of the first branch: the old range is gone. -/
def passDelete (regions : Regions) (adding : Bool) (frold : FlatRange) : List ListenerEvent :=
  if adding then []
  else flatRangeCoalescedIoDel regions frold ++ [.regionDel (sectionFromFlatRange frold)]

/-- The body of the second branch: the range is in both views. -/
def passKeep (adding : Bool) (frold frnew : FlatRange) : List ListenerEvent :=
  if adding then
    [.regionNop (sectionFromFlatRange frnew)] ++
      (if frnew.dirtyLogMask &&& ~~~frold.dirtyLogMask ≠ 0 then
        [.logStart (sectionFromFlatRange frnew) frold.dirtyLogMask frnew.dirtyLogMask] else []) ++
      (if frold.dirtyLogMask &&& ~~~frnew.dirtyLogMask ≠ 0 then
        [.logStop (sectionFromFlatRange frnew) frold.dirtyLogMask frnew.dirtyLogMask] else [])
  else []

/-- The body of the last branch: the range is new. -/
def passAdd (regions : Regions) (adding : Bool) (frnew : FlatRange) : List ListenerEvent :=
  if adding then [.regionAdd (sectionFromFlatRange frnew)] ++ flatRangeCoalescedIoAdd regions frnew
  else []

/-- `frold` goes before `frnew`: it starts lower, or starts there and differs. -/
def oldGoesFirst (frold frnew : FlatRange) : Bool :=
  decide (frold.addr.start < frnew.addr.start) ||
    (decide (frold.addr.start = frnew.addr.start) && !flatrangeEqual frold frnew)

/-- The loop `while (iold < old_view->nr || inew < new_view->nr)` on what is left
of the two views. Each turn drops at least one range. -/
def topologyPassFrom (regions : Regions) (adding : Bool) :
    Nat → FlatView → FlatView → List ListenerEvent
  | 0, _, _ => []
  | _ + 1, [], [] => []
  | turns + 1, frold :: olds, [] =>
    passDelete regions adding frold ++ topologyPassFrom regions adding turns olds []
  | turns + 1, [], frnew :: news =>
    passAdd regions adding frnew ++ topologyPassFrom regions adding turns [] news
  | turns + 1, frold :: olds, frnew :: news =>
    if oldGoesFirst frold frnew then
      passDelete regions adding frold ++ topologyPassFrom regions adding turns olds (frnew :: news)
    else if flatrangeEqual frold frnew then
      passKeep adding frold frnew ++ topologyPassFrom regions adding turns olds news
    else
      passAdd regions adding frnew ++ topologyPassFrom regions adding turns (frold :: olds) news

def addressSpaceUpdateTopologyPass (regions : Regions) (oldView newView : FlatView)
    (adding : Bool) : List ListenerEvent :=
  topologyPassFrom regions adding (oldView.length + newView.length) oldView newView

/-- The callbacks `address_space_set_flatview` issues: both passes. -/
def addressSpaceSetFlatview (regions : Regions) (oldView newView : FlatView) :
    List ListenerEvent :=
  addressSpaceUpdateTopologyPass regions oldView newView false ++
    addressSpaceUpdateTopologyPass regions oldView newView true

/-! ### The decisions of the loop -/

inductive DiffStep where
  | drop (frold : FlatRange)
  | keep (frold frnew : FlatRange)
  | take (frnew : FlatRange)
deriving DecidableEq, Repr

def DiffStep.old : DiffStep → Option FlatRange
  | .drop frold => some frold
  | .keep frold _ => some frold
  | .take _ => none

def DiffStep.new : DiffStep → Option FlatRange
  | .drop _ => none
  | .keep _ frnew => some frnew
  | .take frnew => some frnew

def DiffStep.events (regions : Regions) (adding : Bool) : DiffStep → List ListenerEvent
  | .drop frold => passDelete regions adding frold
  | .keep frold frnew => passKeep adding frold frnew
  | .take frnew => passAdd regions adding frnew

def diffFrom : Nat → FlatView → FlatView → List DiffStep
  | 0, _, _ => []
  | _ + 1, [], [] => []
  | turns + 1, frold :: olds, [] => .drop frold :: diffFrom turns olds []
  | turns + 1, [], frnew :: news => .take frnew :: diffFrom turns [] news
  | turns + 1, frold :: olds, frnew :: news =>
    if oldGoesFirst frold frnew then .drop frold :: diffFrom turns olds (frnew :: news)
    else if flatrangeEqual frold frnew then .keep frold frnew :: diffFrom turns olds news
    else .take frnew :: diffFrom turns (frold :: olds) news

def diffScript (oldView newView : FlatView) : List DiffStep :=
  diffFrom (oldView.length + newView.length) oldView newView

/-- Both passes follow one script: the decisions do not depend on `adding`. -/
theorem topologyPass_eq_script (regions : Regions) (oldView newView : FlatView) (adding : Bool) :
    addressSpaceUpdateTopologyPass regions oldView newView adding =
      (diffScript oldView newView).flatMap (DiffStep.events regions adding) := by
  unfold addressSpaceUpdateTopologyPass diffScript
  fun_induction diffFrom (oldView.length + newView.length) oldView newView with
  | case1 | case2 => rfl
  | case3 turns frold olds ih | case4 turns frnew news ih =>
    rw [topologyPassFrom, ih]
    rfl
  | case5 turns frold olds frnew news first ih =>
    rw [topologyPassFrom, if_pos first, ih]
    rfl
  | case6 turns frold olds frnew news first equal ih =>
    rw [topologyPassFrom, if_neg first, if_pos equal, ih]
    rfl
  | case7 turns frold olds frnew news first equal ih =>
    rw [topologyPassFrom, if_neg first, if_neg equal, ih]
    rfl

/-- The script consumes the old view and the new view, each in order. -/
theorem diffFrom_projections (turns : Nat) (olds news : FlatView)
    (enough : olds.length + news.length ≤ turns) :
    (diffFrom turns olds news).filterMap DiffStep.old = olds ∧
      (diffFrom turns olds news).filterMap DiffStep.new = news ∧
      ∀ frold frnew, DiffStep.keep frold frnew ∈ diffFrom turns olds news →
        flatrangeEqual frold frnew = true := by
  fun_induction diffFrom turns olds news with
  | case1 => grind [Nat.add_eq_zero_iff]
  | case2 => simp
  | case3 | case4 | case5 | case6 | case7 => grind [DiffStep.old, DiffStep.new]

theorem diffScript_old (oldView newView : FlatView) :
    (diffScript oldView newView).filterMap DiffStep.old = oldView :=
  (diffFrom_projections _ _ _ (Nat.le_refl _)).1

theorem diffScript_new (oldView newView : FlatView) :
    (diffScript oldView newView).filterMap DiffStep.new = newView :=
  (diffFrom_projections _ _ _ (Nat.le_refl _)).2.1

variable {frnew frold fr : FlatRange} {newView oldView : FlatView}

theorem diffScript_keep_equal (member : DiffStep.keep frold frnew ∈ diffScript oldView newView) :
    flatrangeEqual frold frnew = true :=
  (diffFrom_projections _ _ _ (Nat.le_refl _)).2.2 frold frnew member

theorem mem_old_iff :
    fr ∈ oldView ↔ DiffStep.drop fr ∈ diffScript oldView newView ∨
      ∃ frnew, DiffStep.keep fr frnew ∈ diffScript oldView newView := by
  conv_lhs => rw [← diffScript_old oldView newView, List.mem_filterMap]
  constructor
  · rintro ⟨_ | _ | _, inScript, project⟩ <;> cases project
    · exact Or.inl inScript
    · exact Or.inr ⟨_, inScript⟩
  · rintro (inScript | ⟨_, inScript⟩) <;> exact ⟨_, inScript, rfl⟩

theorem mem_new_iff :
    fr ∈ newView ↔ DiffStep.take fr ∈ diffScript oldView newView ∨
      ∃ frold, DiffStep.keep frold fr ∈ diffScript oldView newView := by
  conv_lhs => rw [← diffScript_new oldView newView, List.mem_filterMap]
  constructor
  · rintro ⟨_ | _ | _, inScript, project⟩ <;> cases project
    · exact Or.inr ⟨_, inScript⟩
    · exact Or.inl inScript
  · rintro (inScript | ⟨_, inScript⟩) <;> exact ⟨_, inScript, rfl⟩

theorem diffScript_nil_left (view : FlatView) : diffScript [] view = view.map .take := by
  have general : ∀ news : FlatView, diffFrom news.length [] news = news.map .take := by
    intro news
    induction news with
    | nil => rfl
    | cons frnew news ih =>
      rw [List.length_cons, diffFrom, ih, List.map_cons]
  rw [diffScript, List.length_nil, Nat.zero_add]
  exact general view

/-- What stands in both ordered views is kept, whatever its dirty log mask. -/
theorem mem_diffFrom_keep {turns : Nat} {olds news : FlatView}
    (enough : olds.length + news.length ≤ turns) (oldOrdered : Ordered olds)
    (newOrdered : Ordered news) (oldMember : frold ∈ olds) (newMember : frnew ∈ news)
    (equal : flatrangeEqual frold frnew = true) :
    DiffStep.keep frold frnew ∈ diffFrom turns olds news := by
  have sameAddr := flatrangeEqual_addr equal
  fun_induction diffFrom turns olds news with
  | case1 => grind
  | case2 | case4 => cases oldMember
  | case3 => cases newMember
  | case5 turns headOld olds headNew news first ih =>
    have newStart := newOrdered.head_le newMember
    refine List.mem_cons_of_mem _ (ih (by simp at enough ⊢; omega) oldOrdered.tail newOrdered ?_
      newMember)
    -- were `frold` the head, `frnew` would start where `headNew` starts
    refine (List.mem_cons.mp oldMember).resolve_left fun isHead => ?_
    subst isHead
    simp only [oldGoesFirst, Bool.or_eq_true, decide_eq_true_eq, Bool.and_eq_true,
      Bool.not_eq_true'] at first
    rw [sameAddr] at first
    rcases first with lower | ⟨same, different⟩
    · omega
    · rw [newOrdered.eq_of_start newMember (by simp) same, different] at equal
      exact Bool.noConfusion equal
  | case6 turns headOld olds headNew news notFirst headEqual ih =>
    have headAddr := flatrangeEqual_addr headEqual
    by_cases isHead : frold = headOld
    · subst isHead
      have isNewHead : frnew = headNew :=
        newOrdered.eq_of_start newMember (by simp) (by rw [← sameAddr, headAddr])
      rw [isNewHead]
      exact List.mem_cons_self
    · refine List.mem_cons_of_mem _ (ih (by simp at enough ⊢; omega) oldOrdered.tail
        newOrdered.tail ((List.mem_cons.mp oldMember).resolve_left isHead) ?_)
      refine (List.mem_cons.mp newMember).resolve_left fun isNewHead => isHead ?_
      subst isNewHead
      exact oldOrdered.eq_of_start oldMember (by simp) (by rw [sameAddr, headAddr])
  | case7 turns headOld olds headNew news notFirst headDifferent ih =>
    have oldStart := oldOrdered.head_le oldMember
    refine List.mem_cons_of_mem _ (ih (by simp at enough ⊢; omega) oldOrdered newOrdered.tail
      oldMember ?_)
    -- neither first nor equal: `headOld` starts strictly higher
    refine (List.mem_cons.mp newMember).resolve_left fun isNewHead => notFirst ?_
    subst isNewHead
    rw [sameAddr] at oldStart
    simp only [oldGoesFirst, Bool.or_eq_true, decide_eq_true_eq, Bool.and_eq_true,
      Bool.not_eq_true', headDifferent, and_true]
    omega

theorem mem_diffScript_keep (oldOrdered : Ordered oldView) (newOrdered : Ordered newView) :
    DiffStep.keep frold frnew ∈ diffScript oldView newView ↔
      frold ∈ oldView ∧ frnew ∈ newView ∧ flatrangeEqual frold frnew = true := by
  constructor
  · intro member
    refine ⟨?_, ?_, diffScript_keep_equal member⟩
    · rw [← diffScript_old oldView newView]
      exact List.mem_filterMap.mpr ⟨_, member, rfl⟩
    · rw [← diffScript_new oldView newView]
      exact List.mem_filterMap.mpr ⟨_, member, rfl⟩
  · rintro ⟨oldMember, newMember, equal⟩
    exact mem_diffFrom_keep (Nat.le_refl _) oldOrdered newOrdered oldMember newMember equal

end QemuGzvm.Memory
