import QemuGzvm.Library.Transition

/-!
Contract: the counter with a lock in its low bits, on a futex (`util/lockcnt.c`).

Owns:
- the steps of `qemu_lockcnt_inc`, `dec`, `dec_and_lock`, `dec_if_lock`, `lock`, `inc_and_unlock`
  and `unlock`, one for each access to the word and each call of the kernel;
- the rules of use: nothing is decremented below zero, and only the holder unlocks.

What a thread computes between two accesses belongs to the first of them. The word is an `int`
that is not negative, and its range is not bounded here.
-/

namespace QemuGzvm.Util

open QemuGzvm.Library

/-! ### The word -/

/-- The low bits, `QEMU_LOCKCNT_STATE_MASK`. -/
def lockState (word : Nat) : Nat := word % 4

def stateFree : Nat := 0

def stateLocked : Nat := 1

def stateWaiting : Nat := 2

def countStep : Nat := 4

def lockCount (word : Nat) : Nat := word / 4

/-! ### Threads -/

inductive LockOp where
  | inc
  | dec
  | decAndLock
  | decIfLock
  | lock
  | incAndUnlock
  | unlock
deriving DecidableEq, Repr

def LockOp.releases : LockOp → Bool
  | .incAndUnlock | .unlock => true
  | _ => false

/-- The functions that decrement to zero and lock. -/
def LockOp.decrementsToLock : LockOp → Bool
  | .decAndLock | .decIfLock => true
  | _ => false

/-- Where a thread is: before the access that the name says, with `val` and `waited` as the
function has them. -/
inductive LockPc where
  | idle
  /-- The last call has returned. -/
  | done (op : LockOp) (result : Bool)
  /-- The first `qatomic_read`. -/
  | read (op : LockOp)
  | sub
  /-- The exchange by which `inc` and `dec_and_lock` change a count that is high enough. -/
  | casCount (op : LockOp) (val : Nat) (waited : Bool)
  /-- The three accesses of `qemu_lockcnt_cmpxchg_or_wait`. -/
  | casFree (op : LockOp) (val : Nat) (waited : Bool)
  | casWaiting (op : LockOp) (val : Nat) (waited : Bool)
  | reread (op : LockOp)
  /-- `FUTEX_WAIT`, before and in it. -/
  | futexWait (op : LockOp) (val : Nat)
  | asleep (op : LockOp) (val : Nat)
  /-- The exchange of `unlock` and `inc_and_unlock`. -/
  | casUnlock (op : LockOp) (val : Nat)
  /-- `lockcnt_wake`, before the function returns `false`. -/
  | wake (op : LockOp)
  | aborted
deriving DecidableEq, Repr

structure LockThread where
  pc : LockPc
  /-- Between the return of a function that locks and the access that unlocks. -/
  held : Bool
  /-- The current or last call took the count from one to zero. -/
  took : Bool
deriving DecidableEq, Repr

/-- Leaving the loop of `inc`, `dec_and_lock` or `dec_if_lock`, at its `if (waited)`. -/
def afterLoop (op : LockOp) (waited : Bool) : LockPc :=
  if waited then .wake op else .done op false

/-- The loop of `qemu_lockcnt_cmpxchg_or_wait`, on a word that is not free. -/
def waitLoop (op : LockOp) (val : Nat) (waited : Bool) : LockPc :=
  if lockState val = stateLocked then .casWaiting op val waited
  else if lockState val = stateWaiting then .futexWait op val
  else .aborted

/-- Calling `qemu_lockcnt_cmpxchg_or_wait`. -/
def cmpxchgOrWait (op : LockOp) (val : Nat) (waited : Bool) : LockPc :=
  if lockState val = stateFree then .casFree op val waited else waitLoop op val waited

def loopHead (op : LockOp) (val : Nat) (waited : Bool) : LockPc :=
  match op with
  | .inc => if countStep ≤ val then .casCount op val waited else cmpxchgOrWait op val waited
  | .decAndLock =>
    if 2 * countStep ≤ val then .casCount op val waited else cmpxchgOrWait op val waited
  | .decIfLock => if 2 * countStep ≤ val then afterLoop op waited else cmpxchgOrWait op val waited
  | _ => cmpxchgOrWait op val waited

/-- After an access in `qemu_lockcnt_cmpxchg_or_wait`: it returns `false` when the word is free. -/
def waitHead (op : LockOp) (val : Nat) (waited : Bool) : LockPc :=
  if lockState val = stateFree then loopHead op val waited else waitLoop op val waited

/-- `locked_state` and `step`: a thread that has waited takes the lock for others that wait. -/
def lockedState (waited : Bool) : Nat := if waited then stateWaiting else stateLocked

def newIfFree (op : LockOp) (val : Nat) (waited : Bool) : Nat :=
  match op with
  | .inc => countStep
  | .decAndLock | .decIfLock => lockedState waited
  | _ => val + lockedState waited

/-- When `qemu_lockcnt_cmpxchg_or_wait` has returned `true`. -/
def afterFree (op : LockOp) (waited : Bool) : LockPc :=
  match op with
  | .inc => afterLoop op waited
  | _ => .done op true

/-- `val & ~QEMU_LOCKCNT_STATE_MASK`, with the step that `inc_and_unlock` adds. -/
def unlockedWord (op : LockOp) (val : Nat) : Nat :=
  let sum := if op = .incAndUnlock then val + countStep else val
  sum - lockState sum

def afterUnlock (op : LockOp) (val : Nat) : LockPc :=
  if val / 2 % 2 = 1 then .wake op else .done op false

/-! ### States and steps -/

/-- The word, the threads, and how often the count was incremented and decremented. -/
structure LockCntState (T : Type) where
  word : Nat
  incs : Nat
  decs : Nat
  threads : T → LockThread

inductive LockCntStep (T : Type) where
  | call (thread : T) (op : LockOp)
  | run (thread : T)
  | futexWake (thread : T) (woken : Option T)
  /-- `FUTEX_WAIT` returns with `EINTR` and is called again. -/
  | interrupt (thread : T)
deriving DecidableEq

namespace LockCntState

variable {T : Type} [DecidableEq T]

def start : LockCntState T := ⟨0, 0, 0, fun _ => ⟨.idle, false, false⟩⟩

def goto (s : LockCntState T) (t : T) (pc : LockPc) : LockCntState T :=
  { s with threads := Function.update s.threads t { s.threads t with pc := pc } }

/-- A thread changes the word, and the count by `incs` and `decs`. -/
def write (s : LockCntState T) (t : T) (word incs decs : Nat) (pc : LockPc) (held : Bool) :
    LockCntState T where
  word := word
  incs := s.incs + incs
  decs := s.decs + decs
  threads := Function.update s.threads t
    ⟨pc, held, (s.threads t).took || (lockCount s.word == 1 && lockCount word == 0)⟩

def call (s : LockCntState T) (t : T) (op : LockOp) : Option (LockCntState T) :=
  match (s.threads t).pc with
  | .idle | .done _ _ =>
    some { s with
      threads := Function.update s.threads t
        ⟨if op = .dec then .sub else .read op, (s.threads t).held, false⟩ }
  | _ => none

def run (s : LockCntState T) (t : T) : Option (LockCntState T) :=
  let held := (s.threads t).held
  match (s.threads t).pc with
  | .read op =>
    some (s.goto t (if op.releases then .casUnlock op s.word else loopHead op s.word false))
  | .sub => some (s.write t (s.word - countStep) 0 1 (.done .dec false) held)
  | .casCount op val waited =>
    if s.word = val then
      if op = .inc then some (s.write t (val + countStep) 1 0 (afterLoop op waited) held)
      else some (s.write t (val - countStep) 0 1 (afterLoop op waited) held)
    else some (s.goto t (loopHead op s.word waited))
  | .casFree op val waited =>
    if s.word = val then
      some (s.write t (newIfFree op val waited) (if op = .inc then 1 else 0)
        (if op.decrementsToLock then 1 else 0) (afterFree op waited) (held || op != .inc))
    else some (s.goto t (waitHead op s.word waited))
  | .casWaiting op val waited =>
    if s.word = val then
      some (s.write t (val - stateLocked + stateWaiting) 0 0
        (.futexWait op (val - stateLocked + stateWaiting)) held)
    else some (s.goto t (waitHead op s.word waited))
  | .futexWait op val => some (s.goto t (if s.word = val then .asleep op val else .reread op))
  | .reread op => some (s.goto t (waitHead op s.word true))
  | .casUnlock op val =>
    if s.word = val then
      some (s.write t (unlockedWord op val) (if op = .incAndUnlock then 1 else 0) 0
        (afterUnlock op val) false)
    else some (s.goto t (.casUnlock op s.word))
  | _ => none

def futexWake (s : LockCntState T) (t : T) (woken : Option T) : Option (LockCntState T) :=
  match (s.threads t).pc, woken with
  | .wake op, none => some (s.goto t (.done op false))
  | .wake op, some u =>
    match (s.threads u).pc with
    | .asleep sleeping _ => some ((s.goto u (.reread sleeping)).goto t (.done op false))
    | _ => none
  | _, _ => none

def next (s : LockCntState T) : LockCntStep T → Option (LockCntState T)
  | .call t op => s.call t op
  | .run t => s.run t
  | .futexWake t woken => s.futexWake t woken
  | .interrupt t =>
    match (s.threads t).pc with
    | .asleep op val => some (s.goto t (.futexWait op val))
    | _ => none

theorem goto_self (s : LockCntState T) (t : T) (pc : LockPc) :
    (s.goto t pc).threads t = ⟨pc, (s.threads t).held, (s.threads t).took⟩ :=
  Function.update_self _ _ _

theorem goto_other (s : LockCntState T) {t u : T} (other : u ≠ t) (pc : LockPc) :
    (s.goto t pc).threads u = s.threads u :=
  Function.update_of_ne other _ _

theorem write_self (s : LockCntState T) (t : T) (word incs decs : Nat) (pc : LockPc)
    (held : Bool) :
    (s.write t word incs decs pc held).threads t =
      ⟨pc, held, (s.threads t).took || (lockCount s.word == 1 && lockCount word == 0)⟩ :=
  Function.update_self _ _ _

theorem write_other (s : LockCntState T) {t u : T} (other : u ≠ t) (word incs decs : Nat)
    (pc : LockPc) (held : Bool) : (s.write t word incs decs pc held).threads u = s.threads u :=
  Function.update_of_ne other _ _

end LockCntState

section System

variable (T : Type) [DecidableEq T]

def lockCntSystem : LabelledSystem (LockCntState T) (LockCntStep T) :=
  .ofNext .start LockCntState.next

variable {T}

/-- The access decrements the count, if its exchange succeeds. -/
def LockPc.decrements : LockPc → Nat → Bool
  | .sub, _ => true
  | .casCount op val _, word => op == .decAndLock && word == val
  | .casFree op val _, word => op.decrementsToLock && word == val
  | _, _ => false

def LockPc.isAsleep : LockPc → Bool
  | .asleep _ _ => true
  | _ => false

/-- Only the holder unlocks, nobody decrements a count of zero, and a wake-up finds a thread that
sleeps, if there is one. -/
def LockCntRules (s : LockCntState T) : LockCntStep T → Prop
  | .call t op => op.releases = true → (s.threads t).held = true
  | .run t => (s.threads t).pc.decrements s.word = true → countStep ≤ s.word
  | .futexWake _ none => ∀ t, (s.threads t).pc.isAsleep = false
  | _ => True

end System

end QemuGzvm.Util
