import QemuGzvm.Util.LockCnt

/-!
Contract: what holds in every run of the counter with a lock.

Owns:
- the invariant that ties the word to the threads: who holds the lock, what each thread knows
  about the value it read, and who is going to wake a thread that sleeps;
- `Access`, what one access does to the word and to its thread, from which the invariant and the
  promises of the functions follow.

The waking argument rests on `waited`: a thread that has slept either wakes another one when its
function returns, or takes the lock in the waiting state, so that its `unlock` does.
-/

namespace QemuGzvm.Util

open QemuGzvm.Library

/-! ### What a thread knows -/

def LockOp.waits (op : LockOp) : Bool := !op.releases && op != .dec

/-- The thread is awake and has waited, or is about to wake another one. -/
def LockPc.willWake : LockPc → Bool
  | .casCount _ _ waited | .casFree _ _ waited | .casWaiting _ _ waited => waited
  | .futexWait _ _ | .reread _ | .wake _ => true
  | _ => false

def LockThread.Ok (th : LockThread) : Prop :=
  match th.pc with
  | .idle | .sub => True
  | .done op result => op.decrementsToLock = true → (result = true ↔ th.took = true)
  | .read op => (op.releases = true → th.held = true) ∧ op ≠ .dec ∧ th.took = false
  | .casCount op val _ =>
    (op = .inc ∧ countStep ≤ val ∨ op = .decAndLock ∧ 2 * countStep ≤ val) ∧ th.took = false
  | .casFree op val _ =>
    op.waits = true ∧ lockState val = stateFree ∧ (op = .inc → val < countStep) ∧
      (op.decrementsToLock = true → val < 2 * countStep) ∧ th.took = false
  | .casWaiting op val _ => op.waits = true ∧ lockState val = stateLocked ∧ th.took = false
  | .futexWait op val | .asleep op val =>
    op.waits = true ∧ lockState val = stateWaiting ∧ th.took = false
  | .reread op => op.waits = true ∧ th.took = false
  | .casUnlock op _ => op.releases = true ∧ th.held = true
  | .wake op => op.decrementsToLock = true → th.took = false
  | .aborted => False

def LockPc.function : LockPc → Option LockOp
  | .idle | .done _ _ | .aborted => none
  | .sub => some .dec
  | .read op | .casCount op _ _ | .casFree op _ _ | .casWaiting op _ _ | .reread op
  | .futexWait op _ | .asleep op _ | .casUnlock op _ | .wake op => some op

/-! ### One access -/

/-- The lock stays with whom it is, is taken when it is free, or is released. -/
def Handover (word word' : Nat) (held held' : Bool) : Prop :=
  (held' = held ∧ (lockState word' = stateFree ↔ lockState word = stateFree)) ∨
    (lockState word = stateFree ∧ lockState word' ≠ stateFree ∧ held' = true) ∨
    (lockState word' = stateFree ∧ held = true ∧ held' = false)

/-- How the word and a thread change together in one access. It keeps to the first four only if
it does not decrement a count of zero. -/
structure Access (word word' : Nat) (th th' : LockThread) : Prop where
  bits : (th.pc.decrements word = true → countStep ≤ word) → lockState word' < 3
  ok : (th.pc.decrements word = true → countStep ≤ word) → th'.Ok
  handover : (th.pc.decrements word = true → countStep ≤ word) → Handover word word' th.held th'.held
  /-- What is owed to the threads that sleep. -/
  owes : (th.pc.decrements word = true → countStep ≤ word) →
    lockState word' = stateWaiting ∨ th'.pc.willWake = true ∨
      lockState word ≠ stateWaiting ∧ th.pc.willWake = false ∧ th'.pc.isAsleep = false
  /-- `qemu_lockcnt_inc` leaves zero only if the lock is free. -/
  incAlone : th.pc.function = some .inc → lockCount word = 0 → lockCount word' = 1 →
    lockState word = stateFree
  locks : ∀ op, th'.pc = .done op true → op.decrementsToLock = true → th'.held = true
  /-- A thread that has waited remembers it, or leaves it to the holder of the lock. -/
  owed : th.pc.willWake = true → th'.pc.willWake = true ∨
    lockState word' = stateWaiting ∧ (th'.pc.isAsleep = true ∨ th'.held = true)
  unlockWakes : lockState word = stateWaiting → th.held = true → th'.held = false →
    th'.pc.willWake = true

variable {T : Type} [DecidableEq T] {s : LockCntState T} {t : T} {s' : LockCntState T} {pc : LockPc}
  {word : Nat} {op : LockOp}

/-- A step that is one thread's access, which counts its increments and decrements. -/
def Accesses (s : LockCntState T) (t : T) (s' : LockCntState T) : Prop :=
  (((s.threads t).pc.decrements s.word = true → countStep ≤ s.word) →
    lockCount s'.word + s'.decs + s.incs = lockCount s.word + s.decs + s'.incs) ∧
    Access s.word s'.word (s.threads t) (s'.threads t) ∧
    ∀ u, s'.threads u = if u = t then s'.threads t else s.threads u

/-! ### The invariant -/

structure LockCntInv (s : LockCntState T) : Prop where
  bits : lockState s.word < 3
  counter : lockCount s.word + s.decs = s.incs
  ok : ∀ t, (s.threads t).Ok
  taken : ∀ t, (s.threads t).held = true → lockState s.word ≠ stateFree
  unique : ∀ t u, (s.threads t).held = true → (s.threads u).held = true → t = u
  holder : lockState s.word ≠ stateFree → ∃ t, (s.threads t).held = true
  /-- Unless an `unlock` is going to wake it, a thread that sleeps is woken by one that has been
  woken before, or is about to be. -/
  wakes : lockState s.word ≠ stateWaiting → (∃ t, (s.threads t).pc.isAsleep = true) →
    ∃ t, (s.threads t).pc.willWake = true

/-- Some thread that is awake is going to wake one that sleeps. -/
def NoneForgotten (s : LockCntState T) : Prop :=
  lockState s.word ≠ stateWaiting → (∃ t, (s.threads t).pc.isAsleep = true) →
    ∃ t, (s.threads t).pc.willWake = true

theorem LockCntInv.update (inv : LockCntInv s)
    (accesses : lockCount s'.word + s'.decs + s.incs = lockCount s.word + s.decs + s'.incs ∧
      ∀ u, s'.threads u = if u = t then s'.threads t else s.threads u)
    (bits : lockState s'.word < 3) (ok : (s'.threads t).Ok)
    (handover : Handover s.word s'.word (s.threads t).held (s'.threads t).held)
    (wakes : NoneForgotten s') : LockCntInv s' := by
  obtain ⟨-, counter, oks, taken, unique, holder, -⟩ := inv
  obtain ⟨counted, others⟩ := accesses
  unfold Handover at handover
  refine ⟨bits, by omega, ?_, ?_, ?_, fun locked => ?_, wakes⟩
  · grind
  · grind
  · grind
  · grind

theorem LockCntInv.access (inv : LockCntInv s) (accesses : Accesses s t s')
    (positive : (s.threads t).pc.decrements s.word = true → countStep ≤ s.word) :
    LockCntInv s' := by
  obtain ⟨counted, access, others⟩ := accesses
  refine inv.update ⟨counted positive, others⟩ (access.bits positive) (access.ok positive)
    (access.handover positive) fun notWaiting sleeps => ?_
  by_cases own : (s'.threads t).pc.willWake = true
  · exact ⟨t, own⟩
  · have owes := access.owes positive
    obtain ⟨u, asleep⟩ := sleeps
    obtain ⟨v, willWake⟩ := inv.wakes (by grind) ⟨u, by grind⟩
    exact ⟨v, by grind⟩

/-! ### The exchanges that take and release the lock -/

section Exchanges

variable {th : LockThread} {val : Nat} {waited : Bool}

theorem newIfFree_state (waits : op.waits = true) (isFree : lockState val = stateFree) :
    lockState (newIfFree op val waited) =
      if op = .inc then stateFree else if waited then stateWaiting else stateLocked := by
  cases op <;> cases waited <;>
    simp_all [newIfFree, lockedState, lockState, stateFree, stateWaiting, stateLocked, countStep,
      LockOp.waits, LockOp.releases] <;> omega

theorem access_free (isPc : th.pc = .casFree op val waited) (waits : op.waits = true)
    (isFree : lockState val = stateFree) (low : op = .inc → val < countStep)
    (lower : op.decrementsToLock = true → val < 2 * countStep) :
    Access val (newIfFree op val waited) th ⟨afterFree op waited, th.held || op != .inc,
      th.took || (lockCount val == 1 && lockCount (newIfFree op val waited) == 0)⟩ := by
  have isState := @newIfFree_state op val waited waits isFree
  have took (dec : op.decrementsToLock = true) (positive : countStep ≤ val) :
      lockCount val = 1 ∧ lockCount (newIfFree op val waited) = 0 := by
    have low := lower dec
    cases op <;> cases waited <;>
      simp_all [newIfFree, lockedState, lockCount, stateWaiting, stateLocked, countStep,
        LockOp.decrementsToLock] <;> omega
  have decrements : th.pc.decrements val = op.decrementsToLock := by
    rw [isPc]
    simp [LockPc.decrements]
  clear low lower
  by_cases inc : op = .inc
  · subst inc
    have after : (afterFree .inc waited).willWake = waited ∧
        (afterFree .inc waited).isAsleep = false ∧ LockThread.Ok ⟨afterFree .inc waited, th.held,
          th.took || (lockCount val == 1 && lockCount (newIfFree .inc val waited) == 0)⟩ ∧
        ∀ other, afterFree .inc waited ≠ .done other true := by
      cases waited <;> simp [afterFree, afterLoop, LockPc.willWake, LockPc.isAsleep,
        LockThread.Ok, LockOp.decrementsToLock]
    constructor <;> grind [Handover, LockPc.willWake, stateFree, stateWaiting]
  · have after : afterFree op waited = .done op true := by
      cases op <;> simp_all [afterFree]
    have held : (th.held || op != .inc) = true := by simp [inc]
    rw [after, held]
    constructor <;> grind [Handover, LockPc.willWake, LockPc.isAsleep, LockThread.Ok, stateFree,
      stateLocked, stateWaiting]

theorem unlockedWord_state (op : LockOp) (val : Nat) :
    lockState (unlockedWord op val) = stateFree := by
  simp only [unlockedWord, lockState, stateFree]
  omega

theorem access_unlock (isPc : th.pc = .casUnlock op val)
    (releases : op.releases = true) (held : th.held = true) :
    Access val (unlockedWord op val) th ⟨afterUnlock op val, false,
      th.took || (lockCount val == 1 && lockCount (unlockedWord op val) == 0)⟩ := by
  have isState := unlockedWord_state op val
  have wakes : lockState val = stateWaiting → val / 2 % 2 = 1 := by
    simp only [lockState, stateWaiting]
    omega
  have notDec : op.decrementsToLock = false ∧ op ≠ .inc := by
    cases op <;> simp_all [LockOp.releases, LockOp.decrementsToLock]
  constructor
  all_goals
    grind [Handover, LockThread.Ok, afterUnlock, LockPc.willWake, LockPc.isAsleep,
      LockPc.function, stateFree, stateWaiting]

end Exchanges

/-! ### The steps -/

attribute [local grind] LockThread.Ok Handover loopHead waitHead cmpxchgOrWait waitLoop afterLoop
  LockOp.waits LockOp.releases LockOp.decrementsToLock stateFree stateLocked stateWaiting countStep
  lockedState newIfFree afterFree afterUnlock LockPc.willWake LockPc.isAsleep LockPc.function
  lockState lockCount LockPc.decrements unlockedWord

theorem accesses_goto
    (access : Access s.word s.word (s.threads t) ⟨pc, (s.threads t).held, (s.threads t).took⟩) :
    Accesses s t (s.goto t pc) := by
  refine ⟨fun _ => rfl, ?_, fun u => by grind [LockCntState.goto_self, LockCntState.goto_other]⟩
  rw [s.goto_self]
  exact access

theorem accesses_write {incs decs : Nat} {held : Bool}
    (counted : ((s.threads t).pc.decrements s.word = true → countStep ≤ s.word) →
      lockCount word + decs = lockCount s.word + incs) (access : Access s.word word (s.threads t)
      ⟨pc, held, (s.threads t).took || (lockCount s.word == 1 && lockCount word == 0)⟩) :
    Accesses s t (s.write t word incs decs pc held) := by
  refine ⟨?_, ?_, fun u => by grind [LockCntState.write_self, LockCntState.write_other]⟩
  · intro positive
    have same := counted positive
    simp only [LockCntState.write]
    omega
  · rw [s.write_self]
    exact access

/-- A thread has looked at the word and goes on: it is awake and remembers that it waited. -/
theorem access_look {th : LockThread} (bits : lockState word < 3)
    (ok : LockThread.Ok ⟨pc, th.held, th.took⟩) (wakes : th.pc.willWake = true → pc.willWake = true)
    (awake : pc.isAsleep = false) (notLocked : ∀ op, pc ≠ .done op true) :
    Access word word th ⟨pc, th.held, th.took⟩ where
  bits := fun _ => bits
  ok := fun _ => ok
  handover := fun _ => .inl ⟨rfl, Iff.rfl⟩
  owes := by
    intro _
    cases before : th.pc.willWake with
    | true => exact .inr (.inl (wakes before))
    | false =>
      by_cases waiting : lockState word = stateWaiting
      · exact .inl waiting
      · exact .inr (.inr ⟨waiting, rfl, awake⟩)
  incAlone := by omega
  locks := fun op isDone => absurd isDone (notLocked op)
  owed := fun before => .inl (wakes before)
  unlockWakes := fun _ held released => absurd (held.symm.trans released) nofun

section Heads

variable {val : Nat} {waited held : Bool}

theorem loopHead_fits (waits : op.waits = true) (bits : lockState val < 3) :
    LockThread.Ok ⟨loopHead op val waited, held, false⟩ ∧
      (waited = true → (loopHead op val waited).willWake = true) ∧
      (loopHead op val waited).isAsleep = false ∧
      ∀ other, loopHead op val waited ≠ .done other true := by
  cases op <;> grind

theorem waitHead_fits (waits : op.waits = true) (bits : lockState val < 3) :
    LockThread.Ok ⟨waitHead op val waited, held, false⟩ ∧
      (waited = true → (waitHead op val waited).willWake = true) ∧
      (waitHead op val waited).isAsleep = false ∧
      ∀ other, waitHead op val waited ≠ .done other true := by
  have fits := @loopHead_fits op val waited held waits bits
  unfold waitHead waitLoop
  grind

end Heads

section Run

variable (bits : lockState s.word < 3) (ok : (s.threads t).Ok) (taken : s.run t = some s')
  {val : Nat} {waited : Bool}
include bits ok taken

theorem accesses_read (isPc : (s.threads t).pc = .read op) : Accesses s t s' := by
  simp only [LockThread.Ok, LockCntState.run, isPc] at ok taken
  cases taken
  have fits := @loopHead_fits op s.word false (s.threads t).held
  apply accesses_goto
  apply access_look bits
  all_goals grind

theorem accesses_casCount (isPc : (s.threads t).pc = .casCount op val waited) :
    Accesses s t s' := by
  simp only [LockThread.Ok, LockCntState.run, isPc] at ok taken
  split at taken
  · split at taken <;> cases taken <;> apply accesses_write
    · grind
    · constructor <;> grind
    · grind
    · constructor <;> grind
  · cases taken
    apply accesses_goto
    apply access_look bits
    all_goals grind

theorem accesses_casFree (isPc : (s.threads t).pc = .casFree op val waited) :
    Accesses s t s' := by
  simp only [LockThread.Ok, LockCntState.run, isPc] at ok taken
  obtain ⟨waits, isFree, low, lower, notTook⟩ := ok
  split at taken <;> cases taken
  · next same =>
    subst same
    apply accesses_write
    · cases op <;> grind
    · exact access_free isPc waits isFree low lower
  · have fits := @waitHead_fits op s.word waited (s.threads t).held
    apply accesses_goto
    apply access_look bits
    all_goals grind

theorem accesses_casWaiting (isPc : (s.threads t).pc = .casWaiting op val waited) :
    Accesses s t s' := by
  simp only [LockThread.Ok, LockCntState.run, isPc] at ok taken
  split at taken <;> cases taken
  · apply accesses_write
    · grind
    · constructor <;> grind
  · have fits := @waitHead_fits op s.word waited (s.threads t).held
    apply accesses_goto
    apply access_look bits
    all_goals grind

theorem accesses_casUnlock (isPc : (s.threads t).pc = .casUnlock op val) : Accesses s t s' := by
  simp only [LockThread.Ok, LockCntState.run, isPc] at ok taken
  split at taken <;> cases taken
  · next same =>
    subst same
    apply accesses_write
    · cases op <;> grind
    · exact access_unlock isPc ok.1 ok.2
  · apply accesses_goto
    apply access_look bits <;> grind

theorem accesses_run : Accesses s t s' := by
  cases isPc : (s.threads t).pc with
  | read op => exact accesses_read bits ok taken isPc
  | casCount op val waited => exact accesses_casCount bits ok taken isPc
  | casFree op val waited => exact accesses_casFree bits ok taken isPc
  | casWaiting op val waited => exact accesses_casWaiting bits ok taken isPc
  | casUnlock op val => exact accesses_casUnlock bits ok taken isPc
  | sub =>
    simp only [LockThread.Ok, LockCntState.run, isPc] at ok taken
    cases taken
    apply accesses_write
    · grind
    · constructor <;> grind
  | futexWait op val =>
    simp only [LockThread.Ok, LockCntState.run, isPc] at ok taken
    cases taken
    apply accesses_goto
    constructor <;> grind
  | reread op =>
    simp only [LockThread.Ok, LockCntState.run, isPc] at ok taken
    cases taken
    have fits := @waitHead_fits op s.word true (s.threads t).held
    apply accesses_goto
    apply access_look bits <;> grind
  | _ => simp [LockCntState.run, isPc] at taken

end Run

theorem accesses_call (bits : lockState s.word < 3) (taken : s.call t op = some s')
    (holds : op.releases = true → (s.threads t).held = true) :
    Accesses s t s' := by
  unfold LockCntState.call at taken
  split at taken <;> cases taken
  all_goals
    refine ⟨fun _ => rfl, ?_, fun u => by grind [Function.update_apply]⟩
    simp only [Function.update_self]
    constructor <;> grind

theorem inv_woken (inv : LockCntInv s) (isPc : (s.threads t).pc = .wake op)
    (wakes : NoneForgotten (s.goto t (.done op false))) :
    LockCntInv (s.goto t (.done op false)) := by
  have ok := inv.ok t
  refine inv.update (t := t) ⟨rfl, fun u => ?_⟩ inv.bits ?_ ?_ wakes
  · grind [LockCntState.goto_other]
  · rw [s.goto_self]
    grind
  · rw [s.goto_self]
    exact .inl ⟨rfl, Iff.rfl⟩

theorem inv_futexWake (inv : LockCntInv s) {woken : Option T}
    (taken : s.futexWake t woken = some s')
    (nobody : woken = none → ∀ t, (s.threads t).pc.isAsleep = false) : LockCntInv s' := by
  unfold LockCntState.futexWake at taken
  split at taken
  · next op isPc =>
    cases taken
    apply inv_woken inv isPc
    rintro - ⟨u, asleep⟩
    by_cases own : u = t <;> grind [LockCntState.goto_self, LockCntState.goto_other]
  · next op u isPc =>
    split at taken
    · next sleeping val isAsleep =>
      cases taken
      have ok := inv.ok u
      have bits := inv.bits
      rw [LockThread.Ok, isAsleep] at ok
      have other : t ≠ u := by grind
      have woken : LockCntInv (s.goto u (.reread sleeping)) := by
        refine inv.access (accesses_goto ?_) (by grind)
        constructor <;> grind
      apply inv_woken woken
      · rw [s.goto_other other, isPc]
      · refine fun _ _ => ⟨u, ?_⟩
        rw [LockCntState.goto_other _ other.symm, s.goto_self]
        rfl
    · cases taken
  · cases taken

theorem inv_next (inv : LockCntInv s) {label : LockCntStep T} (rules : LockCntRules s label)
    (taken : s.next label = some s') : LockCntInv s' := by
  cases label with
  | call t op =>
    refine inv.access (accesses_call inv.bits taken rules) ?_
    grind [LockCntState.next, LockCntState.call]
  | run t => exact inv.access (accesses_run inv.bits (inv.ok t) taken) rules
  | futexWake t woken =>
    apply inv_futexWake inv taken
    rintro rfl
    exact rules
  | interrupt t =>
    simp only [LockCntState.next] at taken
    split at taken
    · next op val isPc =>
      cases taken
      have ok := inv.ok t
      have bits := inv.bits
      refine inv.access (accesses_goto ?_) (by grind)
      constructor <;> grind
    · cases taken

omit [DecidableEq T] in
theorem inv_start : LockCntInv (LockCntState.start : LockCntState T) where
  bits := show lockState 0 < 3 by decide
  counter := show lockCount 0 + 0 = 0 by decide
  ok := fun _ => trivial
  taken := nofun
  unique := nofun
  holder := fun locked => absurd rfl locked
  wakes := nofun

theorem inv_reached (reached : (lockCntSystem T).ReachedBy LockCntRules s) : LockCntInv s := by
  refine reached.invariant LockCntInv ?_ ?_
  · rintro _ rfl
    exact inv_start
  · exact fun _ _ _ inv rules taken => inv_next inv rules taken

end QemuGzvm.Util
