import QemuGzvm.Util.BottomHalf

/-!
Contract: what holds of bottom halves in every run that keeps to the rule of use.

Owns:
- the invariant: a pending bottom half is in one place (linked, about to be linked, or just
  unlinked), a deleted or one-shot one is pending, about to be freed or freed, and one that is
  wanted is scheduled;
- its preservation by every step;
- a schedule that returns while another thread has yet to link the bottom half.
-/

namespace QemuGzvm.Util

open QemuGzvm.Library

namespace BhState

variable {T B : Type} [DecidableEq B]

def linked (s : BhState T B) : List B := s.bhList ++ s.slices.flatten

def toLink (s : BhState T B) : List B := s.linking.map Prod.snd

def unlinked (s : BhState T B) : List B := s.polls.flatMap BhPoll.dequeued

def toFree (s : BhState T B) : List B := s.polls.flatMap BhPoll.frees

def isPending (s : BhState T B) (bh : B) : Nat := if (s.flags bh).pending then 1 else 0

def isDoomed (s : BhState T B) (bh : B) : Nat :=
  if (s.flags bh).deleted || (s.flags bh).oneshot then 1 else 0

structure At (s : BhState T B) (bh : B) : Prop where
  placed : s.linked.count bh + s.toLink.count bh + s.unlinked.count bh = s.isPending bh
  /-- A deleted or one-shot bottom half waits, is about to be freed or was freed. -/
  doomed : (if s.isDoomed bh = 1 then s.isPending bh else 0) + s.toFree.count bh
    + s.freed.count bh = s.isDoomed bh
  scheduled : (s.flags bh).scheduled = true → (s.flags bh).pending = true
  wanted : s.wanted bh = ((s.flags bh).scheduled && !(s.flags bh).deleted)
  fresh : s.allocated bh = false → s.flags bh = .clear

structure Inv (s : BhState T B) : Prop where
  each : ∀ bh, s.At bh
  nested : ∀ poll ∈ s.polls.tail, poll.isCalling = true
  slices : s.slices.length ≤ s.polls.length

theorem inv_start : (start : BhState T B).Inv := by
  refine ⟨fun bh => ?_, ?_, ?_⟩
  · constructor <;>
      simp [start, linked, toLink, unlinked, toFree, isPending, isDoomed, BhFlags.clear]
  · simp [start]
  · exact Nat.le_refl _

variable {s : BhState T B} {bh : B} {thread : T}

/-! ### Operations of any thread -/

theorem Inv.aioBhNew (inv : s.Inv) : (s.aioBhNew bh).Inv := by
  refine ⟨fun other => ?_, inv.nested, inv.slices⟩
  obtain ⟨placed, doomed, scheduled, wanted, fresh⟩ := inv.each other
  refine ⟨placed, doomed, scheduled, wanted, fun unallocated => fresh ?_⟩
  simp only [BhState.aioBhNew, Function.update_apply] at unallocated
  grind

theorem Inv.aioBhEnqueue (inv : s.Inv) (allocated : s.allocated bh = true) (call : BhCall)
    (usable : (s.flags bh).deleted = false ∧ (s.flags bh).oneshot = false) :
    (s.aioBhEnqueue thread bh call).Inv := by
  refine ⟨fun other => ?_, inv.nested, inv.slices⟩
  obtain ⟨placed, doomed, scheduled, wanted, fresh⟩ := inv.each other
  constructor <;>
    simp only [BhState.aioBhEnqueue, linked, toLink, unlinked, toFree, isPending, isDoomed,
      Function.update_apply] at placed doomed ⊢ <;>
    cases call <;> grind [BhFlags.enqueue]

theorem Inv.aioBhScheduleOneshot (inv : s.Inv) (unallocated : s.allocated bh = false) :
    (s.aioBhScheduleOneshot thread bh).Inv := by
  refine ⟨fun other => ?_, inv.nested, inv.slices⟩
  obtain ⟨placed, doomed, scheduled, wanted, fresh⟩ := inv.each other
  constructor <;>
    simp only [BhState.aioBhScheduleOneshot, linked, toLink, unlinked, toFree, isPending, isDoomed,
      Function.update_apply] at placed doomed ⊢ <;>
    grind [BhFlags.newOneshot, BhFlags.clear]

theorem count_toLink [DecidableEq T] (linking : List (T × B)) (member : (thread, bh) ∈ linking)
    (other : B) :
    (linking.map Prod.snd).count other =
      ((linking.erase (thread, bh)).map Prod.snd).count other + if bh = other then 1 else 0 := by
  have moved := ((List.perm_cons_erase member).map Prod.snd).count_eq other
  rw [moved, List.map_cons, List.count_cons]
  simp

section

variable (inv : s.Inv)
include inv

theorem Inv.link [DecidableEq T] (member : (thread, bh) ∈ s.linking) :
    (s.link thread bh).Inv := by
  refine ⟨fun other => ?_, inv.nested, inv.slices⟩
  obtain ⟨placed, doomed, scheduled, wanted, fresh⟩ := inv.each other
  refine ⟨?_, doomed, scheduled, wanted, fresh⟩
  have moved := count_toLink s.linking member other
  change _ = s.isPending other
  simp only [BhState.link, linked, toLink, unlinked, List.cons_append, List.count_cons,
    beq_iff_eq] at placed ⊢
  omega

theorem Inv.qemuBhCancel (allocated : s.allocated bh = true) :
    (s.qemuBhCancel bh).Inv := by
  refine ⟨fun other => ?_, inv.nested, inv.slices⟩
  obtain ⟨placed, doomed, scheduled, wanted, fresh⟩ := inv.each other
  constructor <;>
    simp only [BhState.qemuBhCancel, linked, toLink, unlinked, toFree, isPending, isDoomed,
      Function.update_apply] at placed doomed ⊢ <;>
    grind [BhFlags.cancel]

/-! ### The context's thread -/

theorem Inv.aioBhPoll (inCallback : s.polls.head?.all BhPoll.isCalling = true) :
    s.aioBhPoll.Inv := by
  refine ⟨fun other => ?_, ?_, ?_⟩
  · obtain ⟨placed, doomed, scheduled, wanted, fresh⟩ := inv.each other
    refine ⟨?_, doomed, scheduled, wanted, fresh⟩
    change _ = s.isPending other
    simp only [BhState.aioBhPoll, linked, toLink, unlinked, List.flatten_append,
      List.flatMap_cons, BhPoll.dequeued, List.count_append, List.flatten_cons] at placed ⊢
    simp only [List.flatten_nil, List.count_nil]
    omega
  · intro poll member
    change poll ∈ s.polls at member
    cases isPolls : s.polls with
    | nil =>
      rw [isPolls] at member
      cases member
    | cons first rest =>
      grind [Inv]
  · have slices := inv.slices
    simp only [BhState.aioBhPoll, List.length_append, List.length_cons, List.length_nil]
    omega

variable {polls : List (BhPoll B)} {poll : BhPoll B} {ret : Bool} {s' : BhState T B}
  {slices : List (List B)}

theorem Inv.at_polls (isPolls : s.polls = poll :: polls) (bh : B) :
    { s with polls := poll :: polls }.At bh := by
  rw [← isPolls]
  exact inv.each bh

theorem Inv.replace (isPolls : s.polls = poll :: polls) {poll' : BhPoll B}
    (isNew : s'.polls = poll' :: polls) (sameSlices : s'.slices.length = s.slices.length)
    (each : ∀ bh, s'.At bh) : s'.Inv := by
  have nested := inv.nested
  have slices := inv.slices
  rw [isPolls] at nested slices
  refine ⟨each, ?_, ?_⟩
  · rw [isNew]
    exact nested
  · rw [isNew, sameSlices]
    exact slices

theorem Inv.pollReturns (isPolls : s.polls = ⟨.loop, ret⟩ :: polls)
    (noSlices : s.slices = []) : { s with polls := polls }.Inv := by
  refine ⟨fun other => { inv.at_polls isPolls other with }, fun outer member => ?_, ?_⟩
  · have nested := inv.nested
    rw [isPolls] at nested
    exact nested outer (List.mem_of_mem_tail member)
  · rw [noSlices]
    exact Nat.zero_le _

theorem Inv.dropSlice (isSlices : s.slices = [] :: slices) :
    { s with slices := slices }.Inv := by
  refine ⟨fun other => ?_, inv.nested, ?_⟩
  · obtain ⟨placed, doomed, scheduled, wanted, fresh⟩ := inv.each other
    unfold linked at placed
    rw [isSlices] at placed
    exact ⟨placed, doomed, scheduled, wanted, fresh⟩
  · grind [Inv]

theorem Inv.unlink {rest : List B} (isPolls : s.polls = ⟨.loop, ret⟩ :: polls)
    (isSlices : s.slices = (bh :: rest) :: slices) :
    (s.unlink bh rest slices ret polls).Inv := by
  refine inv.replace isPolls rfl (by rw [isSlices]; rfl) fun other => ?_
  obtain ⟨placed, doomed, scheduled, wanted, fresh⟩ := inv.at_polls isPolls other
  refine ⟨?_, doomed, scheduled, wanted, fresh⟩
  change _ = s.isPending other at placed ⊢
  simp only [BhState.unlink, linked, toLink, unlinked, isSlices, List.flatMap_cons,
    BhPoll.dequeued, List.flatten_cons, List.cons_append, List.count_append, List.count_cons,
    List.nil_append] at placed ⊢
  omega

/-- Whether the flags that are read start the callback or not. -/
theorem Inv.readFlags (isPolls : s.polls = ⟨.dequeued bh, ret⟩ :: polls)
    (stepped : (if (s.flags bh).scheduled = true ∧ ¬(s.flags bh).deleted = true then
      some (s.startCallback bh ret polls) else some (s.skipCallback bh ret polls)) = some s') :
    s'.Inv := by
  split_ifs at stepped <;> cases stepped
  all_goals
    refine inv.replace isPolls rfl rfl fun other => ?_
    obtain ⟨placed, doomed, pending, wanted, fresh⟩ := inv.at_polls isPolls other
    constructor <;>
      simp only [BhState.startCallback, BhState.skipCallback, linked, toLink, unlinked, toFree,
        isPending, isDoomed, Function.update_apply, List.flatMap_cons, BhPoll.dequeued,
        BhPoll.frees] at placed doomed ⊢ <;>
      grind [BhFlags.dequeue, BhFlags.clear]

theorem Inv.callbackDone {frees : Bool}
    (isPolls : s.polls = ⟨.calling bh frees, ret⟩ :: polls) :
    { s with
      polls := ⟨.loop, ret⟩ :: polls
      freed := if frees then bh :: s.freed else s.freed }.Inv := by
  refine inv.replace isPolls rfl rfl fun other => ?_
  obtain ⟨placed, doomed, pending, wanted, fresh⟩ := inv.at_polls isPolls other
  refine ⟨placed, ?_, pending, wanted, fresh⟩
  simp only [toFree, isPending, isDoomed, List.flatMap_cons, BhPoll.frees] at doomed ⊢
  grind

/-! ### Every run -/

theorem inv_next [DecidableEq T] {step : BhStep T B} (rule : s.Rule step)
    (stepped : s.next step = some s') : s'.Inv := by
  cases step with
  | new bh =>
    obtain ⟨-, ⟨⟩⟩ := Option.ite_none_left_eq_some.mp stepped
    exact inv.aioBhNew
  | enqueue thread bh call =>
    obtain ⟨usable, ⟨⟩⟩ := Option.ite_none_right_eq_some.mp stepped
    exact inv.aioBhEnqueue usable.1 call rule
  | scheduleOneshot thread bh =>
    obtain ⟨usable, ⟨⟩⟩ := Option.ite_none_right_eq_some.mp stepped
    exact inv.aioBhScheduleOneshot (Bool.eq_false_iff.mpr usable.1)
  | link thread bh =>
    obtain ⟨member, ⟨⟩⟩ := Option.ite_none_right_eq_some.mp stepped
    exact inv.link member
  | cancel thread bh =>
    obtain ⟨usable, ⟨⟩⟩ := Option.ite_none_right_eq_some.mp stepped
    exact inv.qemuBhCancel usable.1
  | poll =>
    obtain ⟨inCallback, ⟨⟩⟩ := Option.ite_none_right_eq_some.mp stepped
    exact inv.aioBhPoll inCallback
  | dequeue =>
    simp only [next] at stepped
    split at stepped
    · rename_i ret polls isPolls isSlices
      cases stepped
      exact inv.pollReturns isPolls isSlices
    · rename_i ret polls slices isPolls isSlices
      cases stepped
      exact inv.dropSlice isSlices
    · rename_i ret polls bh rest slices isPolls isSlices
      cases stepped
      exact inv.unlink isPolls isSlices
    · cases stepped
  | readFlags =>
    simp only [next] at stepped
    split at stepped
    · rename_i bh ret polls isPolls
      exact inv.readFlags isPolls stepped
    · cases stepped
  | callbackDone =>
    simp only [next] at stepped
    split at stepped
    · rename_i bh frees ret polls isPolls
      cases stepped
      exact inv.callbackDone isPolls
    · cases stepped

structure Ok (s : BhState T B) : Prop where
  linkedOnce : ∀ bh, s.linked.count bh ≤ 1
  /-- A schedule since which the callback did not start, and the bottom half was neither cancelled
  nor deleted, is not lost: the bottom half is scheduled, and it is linked, or a thread is about to
  link it, or the poll that has unlinked it is about to read its flags. -/
  notLost : ∀ bh, s.wanted bh = true → (s.flags bh).scheduled = true ∧
    (bh ∈ s.linked ∨ (∃ thread, (thread, bh) ∈ s.linking) ∨
      ∃ poll ∈ s.polls.head?, poll.pc = .dequeued bh)
  /-- A callback starts for such a schedule only. -/
  notTwice : ∀ bh, (s.flags bh).scheduled = true → (s.flags bh).deleted = false →
    s.wanted bh = true
  /-- A bottom half that was deleted, or is a one-shot one, waits to be polled, is in its
  callback before it is freed, or was freed once. -/
  freed : ∀ bh, (s.flags bh).deleted = true ∨ (s.flags bh).oneshot = true →
    s.linked.count bh + s.toLink.count bh + s.unlinked.count bh + s.toFree.count bh
      + s.freed.count bh = 1
  kept : ∀ bh, (s.flags bh).deleted = false → (s.flags bh).oneshot = false → bh ∉ s.freed
  freedUnlinked : ∀ bh ∈ s.freed, bh ∉ s.linked
  noSlices : s.polls = [] → s.slices = []

/-- Only the innermost poll has unlinked a bottom half and not read its flags. -/
theorem Inv.mem_unlinked (member : bh ∈ s.unlinked) :
    ∃ poll ∈ s.polls.head?, poll.pc = .dequeued bh := by
  obtain ⟨poll, inPolls, isBh⟩ := List.mem_flatMap.mp member
  have isPc : poll.pc = .dequeued bh := by
    grind [BhPoll.dequeued]
  cases isPolls : s.polls with
  | nil =>
    rw [isPolls] at inPolls
    cases inPolls
  | cons first rest =>
    grind [Inv, BhPoll.isCalling]

theorem Inv.ok : s.Ok where
  linkedOnce := by
    intro bh
    have placed := (inv.each bh).placed
    unfold isPending at placed
    split_ifs at placed <;> omega
  notLost := by
    intro bh wanted
    obtain ⟨placed, -, scheduled, isWanted, -⟩ := inv.each bh
    rw [wanted, eq_comm, Bool.and_eq_true] at isWanted
    rw [isPending, if_pos (scheduled isWanted.1)] at placed
    refine ⟨isWanted.1, ?_⟩
    by_cases isLinked : bh ∈ s.linked
    · exact .inl isLinked
    by_cases isToLink : bh ∈ s.toLink
    · obtain ⟨⟨thread, _⟩, member, rfl⟩ := List.mem_map.mp isToLink
      exact .inr (.inl ⟨thread, member⟩)
    · rw [List.count_eq_zero_of_not_mem isLinked, List.count_eq_zero_of_not_mem isToLink] at placed
      exact .inr (.inr (inv.mem_unlinked (List.count_pos_iff.mp (by omega))))
  notTwice := by
    intro bh scheduled undeleted
    rw [(inv.each bh).wanted, scheduled, undeleted]
    rfl
  freed := by
    intro bh isDoomed
    obtain ⟨placed, doomed, -, -, -⟩ := inv.each bh
    have doom : s.isDoomed bh = 1 := by
      unfold BhState.isDoomed
      rw [if_pos (by rw [Bool.or_eq_true]; exact isDoomed)]
    rw [if_pos doom, doom] at doomed
    omega
  kept := by
    intro bh undeleted notOneshot member
    have doomed := (inv.each bh).doomed
    have doom : s.isDoomed bh = 0 := by
      unfold BhState.isDoomed
      rw [undeleted, notOneshot]
      rfl
    have positive := List.count_pos_iff.mpr member
    omega
  freedUnlinked := by
    intro bh isFreed isLinked
    obtain ⟨placed, doomed, -, -, -⟩ := inv.each bh
    have freed := List.count_pos_iff.mpr isFreed
    have linked := List.count_pos_iff.mpr isLinked
    unfold BhState.isDoomed isPending at doomed
    unfold isPending at placed
    split_ifs at doomed placed <;> omega
  noSlices := by
    intro noPolls
    have length := inv.slices
    rw [noPolls] at length
    exact List.length_eq_zero_iff.mp (Nat.le_zero.mp length)

end

end BhState

/-- In every run that keeps to the rule of use, each bottom half is linked at most once, none that
is scheduled is lost, deleted and one-shot ones are freed once and not while linked, and no slice is
left when the outermost poll has returned. -/
theorem bottom_halves_safe {T B : Type} [DecidableEq T] [DecidableEq B] {s : BhState T B}
    (reached : (bhSystem T B).ReachedBy BhState.Rule s) : s.Ok := by
  refine (reached.invariant BhState.Inv ?_ ?_).ok
  · rintro _ rfl
    exact BhState.inv_start
  · intro s step s' inv rule stepped
    exact BhState.inv_next inv rule stepped

/-- A one-shot bottom half runs, polls from its callback, and is freed; another is deleted. -/
theorem bottom_halves_safe_freed :
    ∃ s : BhState Bool Bool, s.freed = [true, false] ∧ s.polls = [] ∧ s.Ok := by
  obtain ⟨s, reached, freed, polls⟩ : ∃ s, (bhSystem Bool Bool).ReachedBy BhState.Rule s ∧
      s.freed = [true, false] ∧ s.polls = [] :=
    LabelledSystem.exists_reachedBy
      [.new false, .scheduleOneshot true true, .link true true, .poll, .dequeue, .readFlags,
        .enqueue false false .delete, .link false false, .poll, .dequeue, .dequeue, .readFlags,
        .dequeue, .dequeue, .callbackDone, .dequeue] (by decide +kernel)
  exact ⟨s, freed, polls, bottom_halves_safe reached⟩

/-- One thread has set the flags and not linked the bottom half yet; the schedule of another one
returns. No callback has started, nothing was cancelled or deleted, and the bottom half is in no
list. And one that is scheduled after it was deleted is linked after it was freed. -/
theorem bottom_half_scheduled_unlinked :
    (∃ s : BhState Bool Bool, (bhSystem Bool Bool).ReachedBy BhState.Rule s ∧
      s.returned = [(true, false)] ∧ s.wanted false = true ∧ s.linked = [] ∧ s.polls = []) ∧
    ∃ s : BhState Bool Bool, (bhSystem Bool Bool).ReachedBy (fun _ _ => True) s ∧
      s.freed = [false] ∧ s.linked = [false] := by
  constructor
  · exact LabelledSystem.exists_reachedBy
      [.new false, .enqueue false false .schedule, .enqueue true false .schedule]
      (by decide +kernel)
  · exact LabelledSystem.exists_reachedBy
      [.new false, .enqueue false false .delete, .link false false, .poll, .dequeue, .readFlags,
        .enqueue false false .schedule, .link false false] (by decide +kernel)

end QemuGzvm.Util
