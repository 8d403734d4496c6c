import QemuGzvm.Library.Transition
import Mathlib.Data.List.Basic

/-!
Contract: the mutex of coroutines (`qemu_co_mutex_lock` and `qemu_co_mutex_unlock` of
`util/qemu-coroutine-lock.c`).

Owns:
- the mutex and the place of each coroutine in the two functions;
- their steps: one for each atomic access, push and move of a list, and for each wake-up.

Which thread runs a coroutine does not matter here. `mutex->ctx` only decides how long a coroutine
spins before it queues, and what is read from it is left open. The list `reversed` of
`move_waiters` is not seen by anyone else, so that moving it is one step.

Beside the program's own state there are notes about it: which coroutine has the right to go on
(`token`), who is counted in `locked`, and which records have been popped.
-/

namespace QemuGzvm.Util

open QemuGzvm.Library

/-! ### Places -/

/-- A `CoWaitRecord`: the coroutine, and which of its calls the record is on the stack of. -/
structure CoWaitRecord (C : Type) where
  co : C
  call : Nat
deriving DecidableEq

inductive PopSide where
  | lock
  | unlock
deriving DecidableEq, Repr

/-- Where a coroutine is: before the access that the name says. -/
inductive CoPc (C : Type) where
  | idle
  /-- Between the return of lock and the call of unlock. -/
  | holding
  /-- `qatomic_cmpxchg(&mutex->locked, 0, 1)`, with the counter of the spinning loop. -/
  | lockCas (i : Nat)
  /-- The reads of `ctx` and of `locked` in the spinning loop. -/
  | spinCtx (i : Nat)
  | spinLocked (i : Nat)
  | fetchInc
  /-- `qemu_co_mutex_lock_slowpath` from here on. -/
  | push
  | readHandoff
  /-- The two reads of `has_waiters`, and the exchange. -/
  | slowToPop (handoff : Nat)
  | slowFromPush (handoff : Nat)
  | slowCas (handoff : Nat)
  | parked
  /-- `pop_waiter`: its first look, `move_waiters`, and taking the first record. -/
  | popLook (side : PopSide)
  | popMove (side : PopSide)
  | popTake (side : PopSide)
  | wake (side : PopSide) (record : CoWaitRecord C)
  /-- `qemu_co_mutex_unlock` from here on. -/
  | fetchDec
  | setHandoff
  | unlockToPop (handoff : Nat)
  | unlockFromPush (handoff : Nat)
  | unlockCas (handoff : Nat)
  /-- A null pointer was followed, or an assertion failed. -/
  | crashed
deriving DecidableEq

/-- Who has the right to go on. -/
inductive CoToken (C : Type) where
  | free
  | own (co : C)
  /-- Whoever takes `handoff`. -/
  | handoff
deriving DecidableEq

structure CoState (C : Type) where
  pc : C → CoPc C
  /-- The number of the current or last call of lock. -/
  call : C → Nat
  /-- How often `aio_co_wake` was called for the record of that call. -/
  wakes : C → Nat
  locked : Nat
  handoff : Nat
  sequence : Nat
  fromPush : List (CoWaitRecord C)
  toPop : List (CoWaitRecord C)
  holder : Option C
  token : CoToken C
  popped : C → Bool
  counted : List C

inductive CoStep (C : Type) where
  | lock (co : C)
  | unlock (co : C)
  /-- One step; `sameCtx` is what a read of `ctx` tells, if there is one. -/
  | run (co : C) (sameCtx : Bool)
deriving DecidableEq

/-- `++mutex->sequence` of an `unsigned`, without zero. -/
def nextSequence (sequence : Nat) : Nat :=
  if (sequence + 1) % 2 ^ 32 = 0 then 1 else (sequence + 1) % 2 ^ 32

namespace CoState

variable {C : Type} [DecidableEq C]

def start : CoState C where
  pc := fun _ => .idle
  call := fun _ => 0
  wakes := fun _ => 0
  locked := 0
  handoff := 0
  sequence := 0
  fromPush := []
  toPop := []
  holder := none
  token := .free
  popped := fun _ => false
  counted := []

def goto (s : CoState C) (c : C) (pc : CoPc C) : CoState C :=
  { s with pc := Function.update s.pc c pc }

def record (s : CoState C) (c : C) : CoWaitRecord C := ⟨c, s.call c⟩

def hold (s : CoState C) (c : C) : CoState C :=
  { s with pc := Function.update s.pc c .holding, holder := some c }

def acquire (s : CoState C) (c : C) : CoState C :=
  { s with
    pc := Function.update s.pc c .holding
    locked := 1
    holder := some c
    token := .own c
    counted := c :: s.counted }

def queue (s : CoState C) (c : C) : CoState C :=
  { s with
    pc := Function.update s.pc c .push
    locked := s.locked + 1
    counted := c :: s.counted }

def pushWaiter (s : CoState C) (c : C) : CoState C :=
  { s with
    pc := Function.update s.pc c .readHandoff
    wakes := Function.update s.wakes c 0
    popped := Function.update s.popped c false
    fromPush := s.record c :: s.fromPush }

/-- The exchange of `handoff` for zero has succeeded. -/
def claim (s : CoState C) (c : C) (side : PopSide) : CoState C :=
  { s with
    pc := Function.update s.pc c (.popLook side)
    handoff := 0
    token := .own c }

def moveWaiters (s : CoState C) (c : C) (side : PopSide) : CoState C :=
  { s with
    pc := Function.update s.pc c (.popTake side)
    fromPush := []
    toPop := s.fromPush.reverse ++ s.toPop }

/-- `pop_waiter` returns its own record to a coroutine that locks. -/
def popOwn (s : CoState C) (c : C) (rest : List (CoWaitRecord C)) : CoState C :=
  { s with
    pc := Function.update s.pc c .holding
    toPop := rest
    holder := some c }

def popOther (s : CoState C) (c : C) (side : PopSide) (record : CoWaitRecord C)
    (rest : List (CoWaitRecord C)) : CoState C :=
  { s with
    pc := Function.update s.pc c (.wake side record)
    toPop := rest
    token := .own record.co
    popped := Function.update s.popped record.co true }

/-- `aio_co_wake`, after which lock yields and unlock returns. -/
def wakeCo (s : CoState C) (c : C) (side : PopSide) (record : CoWaitRecord C) : CoState C :=
  { s with
    pc := Function.update s.pc c (if side = .lock then .parked else .idle)
    wakes := Function.update s.wakes record.co (s.wakes record.co + 1) }

def release (s : CoState C) (c : C) : CoState C :=
  { s with
    pc := Function.update s.pc c (if s.locked = 1 then .idle else .popLook .unlock)
    locked := s.locked - 1
    token := if s.locked = 1 then .free else s.token
    counted := s.counted.erase c }

/-- `qatomic_set_mb(&mutex->handoff, our_handoff)` -/
def offer (s : CoState C) (c : C) : CoState C :=
  { s with
    pc := Function.update s.pc c (.unlockToPop (nextSequence s.sequence))
    sequence := nextSequence s.sequence
    handoff := nextSequence s.sequence
    token := .handoff }

/-- The head of the spinning loop, `waiters == 1 && ++i < 1000`. -/
def spinHead (waiters i : Nat) : CoPc C :=
  if waiters = 1 ∧ i + 1 < 1000 then .spinCtx (i + 1) else .fetchInc

def take (s : CoState C) (c : C) (side : PopSide) : CoState C :=
  match s.toPop with
  | [] => s.goto c (if side = .lock then .crashed else .setHandoff)
  | first :: rest =>
    if side = .lock ∧ first.co = c then
      if first = s.record c then s.popOwn c rest else s.goto c .crashed
    else s.popOther c side first rest

def run (s : CoState C) (c : C) (sameCtx : Bool) : Option (CoState C) :=
  match s.pc c with
  | .idle | .holding | .crashed => none
  | .lockCas i => some (if s.locked = 0 then s.acquire c else s.goto c (spinHead s.locked i))
  | .spinCtx i => some (s.goto c (if sameCtx then .fetchInc else .spinLocked i))
  | .spinLocked i => some (s.goto c (if s.locked = 0 then .lockCas i else spinHead 1 i))
  | .fetchInc => some (if s.locked = 0 then s.acquire c else s.queue c)
  | .push => some (s.pushWaiter c)
  | .readHandoff => some (s.goto c (if s.handoff = 0 then .parked else .slowToPop s.handoff))
  | .slowToPop h => some (s.goto c (if s.toPop = [] then .slowCas h else .slowFromPush h))
  | .slowFromPush h => some (s.goto c (if s.fromPush = [] then .slowCas h else .parked))
  | .slowCas h => some (if s.handoff = h then s.claim c .lock else s.goto c .parked)
  | .parked => if s.wakes c = 0 then none else some (s.hold c)
  | .popLook side => some (s.goto c (if s.toPop = [] then .popMove side else .popTake side))
  | .popMove side => some (s.moveWaiters c side)
  | .popTake side => some (s.take c side)
  | .wake side record => some (s.wakeCo c side record)
  | .fetchDec => some (s.release c)
  | .setHandoff => some (s.offer c)
  | .unlockToPop h => some (s.goto c (if s.toPop = [] then .unlockCas h else .unlockFromPush h))
  | .unlockFromPush h => some (s.goto c (if s.fromPush = [] then .unlockCas h else .idle))
  | .unlockCas h => some (if s.handoff = h then s.claim c .unlock else s.goto c .idle)

def next (s : CoState C) : CoStep C → Option (CoState C)
  | .lock c =>
    match s.pc c with
    | .idle =>
      some { s with
        pc := Function.update s.pc c (.lockCas 0)
        call := Function.update s.call c (s.call c + 1) }
    | _ => none
  | .unlock c =>
    match s.pc c with
    | .holding =>
      if s.locked ≠ 0 ∧ s.holder = some c then
        some { s with pc := Function.update s.pc c .fetchDec, holder := none }
      else some (s.goto c .crashed)
    | _ => none
  | .run c sameCtx => s.run c sameCtx

theorem goto_pc (s : CoState C) (c : C) (pc : CoPc C) : (s.goto c pc).pc c = pc :=
  Function.update_self _ _ _

theorem take_pc_other (s : CoState C) {c d : C} (other : d ≠ c) (side : PopSide) :
    (s.take c side).pc d = s.pc d := by
  unfold take
  split
  · exact Function.update_of_ne other _ _
  · split
    · split <;> exact Function.update_of_ne other _ _
    · exact Function.update_of_ne other _ _

theorem run_pc_other {s s' : CoState C} {c d : C} {sameCtx : Bool} (other : d ≠ c)
    (taken : s.run c sameCtx = some s') : s'.pc d = s.pc d := by
  unfold run at taken
  split at taken <;> (try split at taken) <;> cases taken
  all_goals first
    | exact s.take_pc_other other _
    | exact Function.update_of_ne other _ _

end CoState

def coMutexSystem (C : Type) [DecidableEq C] : LabelledSystem (CoState C) (CoStep C) :=
  .ofNext .start CoState.next

end QemuGzvm.Util
