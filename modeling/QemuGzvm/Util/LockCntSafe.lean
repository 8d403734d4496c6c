import QemuGzvm.Util.LockCntRuns
import Mathlib.Data.Fintype.Defs

/-!
Contract: the counter with a lock counts, excludes, and forgets nobody who sleeps.

Owns:
- `LockCntSafe`, what is promised of every reachable state and of the steps from it;
- that it holds in every run that keeps to the rules of use.
-/

namespace QemuGzvm.Util

open QemuGzvm.Library

variable {T : Type} [DecidableEq T] {s : LockCntState T}

/-- A thread that owes a wake-up: it calls `lockcnt_wake` next, still owes it, or has made sure
that the holder of the lock does. -/
def Discharges (t : T) (label : LockCntStep T) (s' : LockCntState T) : Prop :=
  (∃ woken, label = .futexWake t woken) ∨ (s'.threads t).pc.willWake = true ∨
    lockState s'.word = stateWaiting ∧
      ((s'.threads t).pc.isAsleep = true ∨ (s'.threads t).held = true)

structure LockCntSafe (s : LockCntState T) : Prop where
  exclusive : ∀ t u, (s.threads t).held = true → (s.threads u).held = true → t = u
  counter : lockCount s.word + s.decs = s.incs
  bits : lockState s.word ≠ 3
  /-- `qemu_lockcnt_inc` does not leave zero while the lock is held. -/
  incAlone : ∀ t s', s.run t = some s' → (s.threads t).pc.function = some .inc →
    lockCount s.word = 0 → lockCount s'.word = 1 → ∀ u, (s.threads u).held = false
  /-- The result says whether the call took the count from one to zero; if so, it has the lock. -/
  result : ∀ t op result, (s.threads t).pc = .done op result → op.decrementsToLock = true →
    (result = true ↔ (s.threads t).took = true)
  locks : ∀ t s' op, s.run t = some s' → (s'.threads t).pc = .done op true →
    op.decrementsToLock = true → (s'.threads t).held = true
  wakes : lockState s.word = stateFree → (∃ t, (s.threads t).pc.isAsleep = true) →
    ∃ t, (s.threads t).pc.willWake = true
  /-- Whoever owes a wake-up does not forget it, and neither does a holder with waiters. -/
  owed : ∀ t label s', LockCntRules s label → s.next label = some s' →
    (s.threads t).pc.willWake = true → Discharges t label s'
  unlockWakes : ∀ t s', s.run t = some s' → lockState s.word = stateWaiting →
    (s.threads t).held = true → (s'.threads t).held = false →
    (s'.threads t).pc.willWake = true

variable {t : T} {label : LockCntStep T} {s' : LockCntState T}

/-- Nobody loses what it owes in an access, its own or another thread's. -/
theorem Accesses.discharges {u : T} (accesses : Accesses s u s')
    (willWake : (s.threads t).pc.willWake = true) :
    Discharges t label s' := by
  obtain ⟨-, access, others⟩ := accesses
  have owed := access.owed
  grind [Discharges]

/-- No step takes a thread out of what it owes. -/
theorem discharges_next (inv : LockCntInv s) (rules : LockCntRules s label)
    (taken : s.next label = some s') (willWake : (s.threads t).pc.willWake = true) :
    Discharges t label s' := by
  -- A thread that is asleep owes nothing.
  have awake {u : T} {op : LockOp} {val : Nat} (isPc : (s.threads u).pc = .asleep op val) :
      t ≠ u := by
    rintro rfl
    rw [isPc] at willWake
    cases willWake
  cases label with
  | call u op => exact (accesses_call inv.bits taken rules).discharges willWake
  | run u => exact (accesses_run inv.bits (inv.ok u) taken).discharges willWake
  | futexWake u woken =>
    by_cases own : t = u
    · exact .inl ⟨woken, own ▸ rfl⟩
    · simp only [LockCntState.next, LockCntState.futexWake] at taken
      grind [Discharges, LockCntState.goto_other]
  | interrupt u =>
    simp only [LockCntState.next] at taken
    grind [Discharges, LockCntState.goto_other]

/-- In every run that keeps to the rules, the lock excludes, the count counts, and whoever sleeps
is going to be woken. -/
theorem lockcnt_safe (T : Type) [DecidableEq T] (s : LockCntState T)
    (reached : (lockCntSystem T).ReachedBy LockCntRules s) : LockCntSafe s := by
  have inv := inv_reached reached
  have access {t : T} {s' : LockCntState T} (taken : s.run t = some s') :
      Access s.word s'.word (s.threads t) (s'.threads t) :=
    (accesses_run inv.bits (inv.ok t) taken).2.1
  constructor
  · exact inv.unique
  · exact inv.counter
  · have bits := inv.bits
    omega
  · intro t s' taken isInc zero one u
    have free := (access taken).incAlone isInc zero one
    rw [Bool.eq_false_iff]
    exact fun held => inv.taken u held free
  · intro t op result isDone
    have ok := inv.ok t
    rw [LockThread.Ok, isDone] at ok
    exact ok
  · exact fun t s' op taken => (access taken).locks op
  · intro free
    apply inv.wakes
    rw [free]
    decide
  · exact fun t label s' rules taken willWake => discharges_next inv rules taken willWake
  · exact fun t s' taken => (access taken).unlockWakes

instance [Fintype T] (s : LockCntState T) :
    (label : LockCntStep T) → Decidable (LockCntRules s label)
  | .call t op => inferInstanceAs (Decidable (op.releases = true → (s.threads t).held = true))
  | .run t =>
    inferInstanceAs
      (Decidable ((s.threads t).pc.decrements s.word = true → countStep ≤ s.word))
  | .futexWake _ none => inferInstanceAs (Decidable (∀ t, (s.threads t).pc.isAsleep = false))
  | .futexWake _ (some _) | .interrupt _ => .isTrue trivial

/-- One thread locks, another one falls asleep, and the first one has unlocked. -/
def unlockedUnderSleeper : List (LockCntStep Bool) :=
  [.call true .lock, .run true, .run true, .call false .lock, .run false, .run false, .run false,
    .call true .unlock, .run true, .run true]

theorem lockcnt_safe_unlocked :
    ∃ s : LockCntState Bool, LockCntSafe s ∧ lockState s.word = stateFree ∧
      (s.threads false).pc.isAsleep = true ∧ (s.threads true).pc = .wake .unlock := by
  obtain ⟨s, reached, isState⟩ : ∃ s, (lockCntSystem Bool).ReachedBy LockCntRules s ∧
      lockState s.word = stateFree ∧ (s.threads false).pc.isAsleep = true ∧
      (s.threads true).pc = .wake .unlock :=
    LabelledSystem.exists_reachedBy unlockedUnderSleeper (by decide +kernel)
  exact ⟨s, lockcnt_safe Bool s reached, isState⟩

end QemuGzvm.Util
