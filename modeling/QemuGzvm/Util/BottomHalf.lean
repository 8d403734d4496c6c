import QemuGzvm.Library.Transition
import Mathlib.Data.List.Count

/-!
Contract: the bottom halves of an `AioContext` (`aio_bh_enqueue`, `aio_bh_dequeue`, `aio_bh_poll`
and their callers in `util/async.c`).

Owns:
- a bottom half's flags, the lists it is linked in, and the polls in progress;
- the steps, each with one atomic operation on the flags or on `bh_list`;
- the rule of use: a bottom half that was deleted is not used again, and nobody has a pointer to a
  one-shot one.

Any number of threads may be between the two operations of `aio_bh_enqueue`. The polls are those
of the context's thread, each inside a callback of the one before. A bottom half is never allocated
where another was, so that a name means one bottom half. For each of them it is noted whether it
was scheduled after its callback started last and after it was cancelled or deleted.
-/

namespace QemuGzvm.Util

open QemuGzvm.Library

/-- `BH_PENDING`, `BH_SCHEDULED`, `BH_DELETED`, `BH_ONESHOT`, `BH_IDLE` -/
structure BhFlags where
  pending : Bool
  scheduled : Bool
  deleted : Bool
  oneshot : Bool
  idle : Bool
deriving DecidableEq

/-- The callers of `aio_bh_enqueue` on an existing bottom half. -/
inductive BhCall where
  | schedule
  | scheduleIdle
  | delete
deriving DecidableEq

namespace BhFlags

def clear : BhFlags := ⟨false, false, false, false, false⟩

/-- The flags that the call passes, and `BH_PENDING`, are set. -/
def enqueue (flags : BhFlags) : BhCall → BhFlags
  | .schedule => { flags with pending := true, scheduled := true }
  | .scheduleIdle => { flags with pending := true, scheduled := true, idle := true }
  | .delete => { flags with pending := true, deleted := true }

def dequeue (flags : BhFlags) : BhFlags :=
  { flags with pending := false, scheduled := false, idle := false }

def cancel (flags : BhFlags) : BhFlags := { flags with scheduled := false }

/-- `aio_bh_schedule_oneshot_full` on a new bottom half. -/
def newOneshot : BhFlags := ⟨true, true, false, true, false⟩

end BhFlags

inductive BhPollPc (B : Type) where
  | loop
  /-- A bottom half is unlinked, its flags are not read yet. -/
  | dequeued (bh : B)
  /-- In the callback, after which the bottom half may have to be freed. -/
  | calling (bh : B) (frees : Bool)
deriving DecidableEq

structure BhPoll (B : Type) where
  pc : BhPollPc B
  ret : Bool
deriving DecidableEq

namespace BhPoll

variable {B : Type}

def dequeued (poll : BhPoll B) : List B :=
  match poll.pc with
  | .dequeued bh => [bh]
  | _ => []

def frees (poll : BhPoll B) : List B :=
  match poll.pc with
  | .calling bh true => [bh]
  | _ => []

def isCalling (poll : BhPoll B) : Bool :=
  match poll.pc with
  | .calling _ _ => true
  | _ => false

end BhPoll

structure BhState (T B : Type) where
  allocated : B → Bool
  flags : B → BhFlags
  bhList : List B
  /-- `bh_slice_list` -/
  slices : List (List B)
  /-- The threads that set `BH_PENDING` and have to link the bottom half. -/
  linking : List (T × B)
  /-- The calls of `aio_bh_poll` in progress, the innermost first. -/
  polls : List (BhPoll B)
  freed : List B
  /-- A schedule came after the last start of the callback, cancel and delete. -/
  wanted : B → Bool
  /-- The calls of `aio_bh_enqueue` that have returned. -/
  returned : List (T × B)

inductive BhStep (T B : Type) where
  | new (bh : B)
  /-- The `fetch_or` of `aio_bh_enqueue`. -/
  | enqueue (thread : T) (bh : B) (call : BhCall)
  /-- `aio_bh_schedule_oneshot_full`, up to its `fetch_or`. -/
  | scheduleOneshot (thread : T) (bh : B)
  /-- `QSLIST_INSERT_HEAD_ATOMIC` -/
  | link (thread : T) (bh : B)
  | cancel (thread : T) (bh : B)
  /-- `aio_bh_poll`, up to its loop. -/
  | poll
  /-- A turn of the loop, up to the `fetch_and` of `aio_bh_dequeue`. -/
  | dequeue
  /-- The `fetch_and`, and the rest of the turn, up to the callback. -/
  | readFlags
  | callbackDone
deriving DecidableEq

namespace BhState

variable {T B : Type} [DecidableEq T] [DecidableEq B]

def start : BhState T B where
  allocated := fun _ => false
  flags := fun _ => .clear
  bhList := []
  slices := []
  linking := []
  polls := []
  freed := []
  wanted := fun _ => false
  returned := []

/-- The thread is not inside `aio_bh_enqueue`. -/
def IsFree (s : BhState T B) (thread : T) : Prop := ∀ entry ∈ s.linking, entry.1 ≠ thread

instance (s : BhState T B) (thread : T) : Decidable (s.IsFree thread) :=
  inferInstanceAs (Decidable (∀ entry ∈ s.linking, _))

def aioBhNew (s : BhState T B) (bh : B) : BhState T B :=
  { s with allocated := Function.update s.allocated bh true }

/-- The `fetch_or` of `aio_bh_enqueue`: who finds `BH_PENDING` clear has to link the bottom half,
the others are done. -/
def aioBhEnqueue (s : BhState T B) (thread : T) (bh : B) (call : BhCall) : BhState T B :=
  { s with
    flags := Function.update s.flags bh ((s.flags bh).enqueue call)
    wanted := Function.update s.wanted bh (call ≠ .delete)
    linking := if (s.flags bh).pending then s.linking else (thread, bh) :: s.linking
    returned := if (s.flags bh).pending then (thread, bh) :: s.returned else s.returned }

def aioBhScheduleOneshot (s : BhState T B) (thread : T) (bh : B) : BhState T B :=
  { s with
    allocated := Function.update s.allocated bh true
    flags := Function.update s.flags bh .newOneshot
    wanted := Function.update s.wanted bh true
    linking := (thread, bh) :: s.linking }

def link (s : BhState T B) (thread : T) (bh : B) : BhState T B :=
  { s with
    bhList := bh :: s.bhList
    linking := s.linking.erase (thread, bh)
    returned := (thread, bh) :: s.returned }

def qemuBhCancel (s : BhState T B) (bh : B) : BhState T B :=
  { s with
    flags := Function.update s.flags bh (s.flags bh).cancel
    wanted := Function.update s.wanted bh false }

/-- `QSLIST_MOVE_ATOMIC`, and the slice goes to the end of `bh_slice_list`. -/
def aioBhPoll (s : BhState T B) : BhState T B :=
  { s with
    bhList := []
    slices := s.slices ++ [s.bhList]
    polls := ⟨.loop, false⟩ :: s.polls }

def unlink (s : BhState T B) (bh : B) (rest : List B) (slices : List (List B)) (ret : Bool)
    (polls : List (BhPoll B)) : BhState T B :=
  { s with slices := rest :: slices, polls := ⟨.dequeued bh, ret⟩ :: polls }

def startCallback (s : BhState T B) (bh : B) (ret : Bool) (polls : List (BhPoll B)) :
    BhState T B :=
  { s with
    flags := Function.update s.flags bh (s.flags bh).dequeue
    wanted := Function.update s.wanted bh false
    polls := ⟨.calling bh (s.flags bh).oneshot, ret || !(s.flags bh).idle⟩ :: polls }

/-- A bottom half that was deleted, or cancelled, is not called. -/
def skipCallback (s : BhState T B) (bh : B) (ret : Bool) (polls : List (BhPoll B)) :
    BhState T B :=
  { s with
    flags := Function.update s.flags bh (s.flags bh).dequeue
    polls := ⟨.loop, ret⟩ :: polls
    freed := if (s.flags bh).deleted ∨ (s.flags bh).oneshot then bh :: s.freed else s.freed }

def next (s : BhState T B) : BhStep T B → Option (BhState T B)
  | .new bh => if s.allocated bh then none else some (s.aioBhNew bh)
  | .enqueue thread bh call =>
    if s.allocated bh ∧ s.IsFree thread then some (s.aioBhEnqueue thread bh call) else none
  | .scheduleOneshot thread bh =>
    if ¬s.allocated bh ∧ s.IsFree thread then some (s.aioBhScheduleOneshot thread bh) else none
  | .link thread bh => if (thread, bh) ∈ s.linking then some (s.link thread bh) else none
  | .cancel thread bh =>
    if s.allocated bh ∧ s.IsFree thread then some (s.qemuBhCancel bh) else none
  | .poll => if s.polls.head?.all BhPoll.isCalling then some s.aioBhPoll else none
  | .dequeue =>
    match s.polls, s.slices with
    | ⟨.loop, _⟩ :: polls, [] => some { s with polls := polls }
    | ⟨.loop, _⟩ :: _, [] :: slices => some { s with slices := slices }
    | ⟨.loop, ret⟩ :: polls, (bh :: rest) :: slices => some (s.unlink bh rest slices ret polls)
    | _, _ => none
  | .readFlags =>
    match s.polls with
    | ⟨.dequeued bh, ret⟩ :: polls =>
      if (s.flags bh).scheduled ∧ ¬(s.flags bh).deleted then
        some (s.startCallback bh ret polls)
      else some (s.skipCallback bh ret polls)
    | _ => none
  | .callbackDone =>
    match s.polls with
    | ⟨.calling bh frees, ret⟩ :: polls =>
      some { s with
        polls := ⟨.loop, ret⟩ :: polls
        freed := if frees then bh :: s.freed else s.freed }
    | _ => none

/-- Nobody uses a bottom half after it was deleted, or a one-shot one. -/
def Rule (s : BhState T B) : BhStep T B → Prop
  | .enqueue _ bh _ => (s.flags bh).deleted = false ∧ (s.flags bh).oneshot = false
  | .cancel _ bh => (s.flags bh).deleted = false ∧ (s.flags bh).oneshot = false
  | _ => True

instance (s : BhState T B) (step : BhStep T B) : Decidable (s.Rule step) :=
  match step with
  | .enqueue _ _ _ => inferInstanceAs (Decidable (_ ∧ _))
  | .cancel _ _ => inferInstanceAs (Decidable (_ ∧ _))
  | .new _ => .isTrue trivial
  | .scheduleOneshot _ _ => .isTrue trivial
  | .link _ _ => .isTrue trivial
  | .poll => .isTrue trivial
  | .dequeue => .isTrue trivial
  | .readFlags => .isTrue trivial
  | .callbackDone => .isTrue trivial

end BhState

def bhSystem (T B : Type) [DecidableEq T] [DecidableEq B] :
    LabelledSystem (BhState T B) (BhStep T B) :=
  .ofNext .start BhState.next

end QemuGzvm.Util
