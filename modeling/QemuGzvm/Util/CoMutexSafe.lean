import QemuGzvm.Util.CoMutexRuns

/-!
Contract: the coroutine mutex excludes, and strands nobody.

Owns:
- that every step of lock and unlock keeps the invariant;
- `CoMutexSafe`, what is promised of every reachable state.
-/

namespace QemuGzvm.Util

open QemuGzvm.Library

variable {C : Type} [DecidableEq C] {s : CoState C} {c : C} {s' : CoState C} {sameCtx : Bool}
  {label : CoStep C}

/-! ### Every step -/

omit [DecidableEq C] in
theorem spinHead_cases (waiters i : Nat) :
    (∃ j, CoState.spinHead waiters i = (.spinCtx j : CoPc C)) ∨
      CoState.spinHead waiters i = (.fetchInc : CoPc C) := by
  unfold CoState.spinHead
  split
  · exact .inl ⟨_, rfl⟩
  · exact .inr rfl

theorem inv_spinHead (inv : CoInv s) {old : CoPc C} (isPc : s.pc c = old) (waiters i : Nat)
    (profile : old.profile = (.fetchInc : CoPc C).profile)
    (notOffering : old.offers s.handoff = false) :
    CoInv (s.goto c (CoState.spinHead waiters i)) := by
  rcases @spinHead_cases C waiters i with ⟨j, isHead⟩ | isHead
  all_goals
    rw [isHead]
    exact inv.quietly isPc profile.symm trivial notOffering

theorem inv_take (inv : CoInv s) {side : PopSide} (isPc : s.pc c = .popTake side) :
    CoInv (s.take c side) := by
  unfold CoState.take
  split
  · next empty =>
    cases side with
    | lock => exact absurd empty (inv.takingSome c isPc)
    | unlock => exact inv.quietly isPc rfl empty rfl
  · next first rest isList =>
    have isRecord := (inv.records first).mp (by simp [isList])
    split
    · next own =>
      obtain ⟨rfl, isOwn⟩ := own
      have same : first = s.record c := by
        cases first
        simp_all [CoState.record]
      rw [if_pos same]
      exact inv_popOwn inv isPc (by rw [← same]; exact isList)
    · next notOwn =>
      apply inv_popOther inv isPc isList
      -- Unlock has no record of its own.
      rintro isOwn
      rw [isOwn, isPc] at isRecord
      cases side with
      | lock => exact notOwn ⟨rfl, isOwn⟩
      | unlock => cases isRecord.2.1

theorem inv_coRun (inv : CoInv s) (taken : s.run c sameCtx = some s') : CoInv s' := by
  have nonzero {old : CoPc C} {h : Nat} (isPc : s.pc c = old) (saw : old.saw = some h) :
      h ≠ 0 := fun zero => inv.saw c (by rw [isPc, saw, zero])
  unfold CoState.run at taken
  split at taken <;> try cases taken
  · next i isPc =>
    split
    · next zero => exact inv_acquired inv (.inl ⟨i, isPc⟩) zero
    · exact inv_spinHead inv isPc _ _ rfl rfl
  · next i isPc => split <;> exact inv.quietly isPc rfl trivial rfl
  · next i isPc =>
    split
    · exact inv.quietly isPc rfl trivial rfl
    · exact inv_spinHead inv isPc _ _ rfl rfl
  · next isPc =>
    split
    · next zero => exact inv_acquired inv (.inr isPc) zero
    · next nonzero => exact inv.effect (.queue isPc nonzero)
  · next isPc => exact inv_pushWaiter inv isPc
  · next isPc =>
    split
    · exact inv.quietly isPc rfl trivial rfl
    · next nonzero => exact inv.quietly isPc rfl nonzero rfl
  · next h isPc => split <;> exact inv.quietly isPc rfl (nonzero isPc rfl) rfl
  · next h isPc =>
    split
    · exact inv.quietly isPc rfl (nonzero isPc rfl) rfl
    · exact inv.quietly isPc rfl trivial rfl
  · next h isPc =>
    split
    · next hit => exact inv_claim inv (by rw [isPc, if_pos rfl]) hit
    · exact inv.quietly isPc rfl trivial rfl
  · next isPc =>
    split at taken <;> cases taken
    next woken => exact inv_hold inv isPc woken
  · next side isPc =>
    split
    · next empty => exact inv.quietly isPc (by cases side <;> rfl) empty rfl
    · next some_ =>
      refine inv.quietly isPc (by cases side <;> rfl) ?_ rfl
      cases side
      · exact some_
      · trivial
  · next side isPc => exact inv_moveWaiters inv isPc
  · next side isPc => exact inv_take inv isPc
  · next side record isPc => exact inv_wakeCo inv isPc
  · next isPc => exact inv.effect (.release isPc)
  · next isPc => exact inv_offer inv isPc
  · next h isPc =>
    split
    · exact inv.quiet isPc rfl (nonzero isPc rfl) fun _ offers => offers
    · next some_ =>
      -- What is offered is offered with nothing to pop.
      exact inv.quiet isPc rfl (nonzero isPc rfl)
        fun offered => absurd (inv.offeredEmpty offered) some_
  · next h isPc =>
    split
    · exact inv.quietly isPc rfl (nonzero isPc rfl) rfl
    · exact inv.quietly isPc rfl trivial rfl
  · next h isPc =>
    split
    · next hit => exact inv_claim inv (by rw [isPc, if_neg (by decide)]) hit
    · next miss =>
      exact inv.quietly isPc rfl trivial (beq_false_of_ne fun same => miss same.symm)

theorem inv_coNext (inv : CoInv s) (taken : s.next label = some s') : CoInv s' := by
  cases label with
  | lock c =>
    simp only [CoState.next] at taken
    split at taken
    · next isPc =>
      cases taken
      exact inv.effect (.lock isPc)
    · cases taken
  | unlock c =>
    simp only [CoState.next] at taken
    split at taken
    · next isPc =>
      have isCounted := (inv.countedMem c).mpr (by rw [isPc]; rfl)
      have nonzero : s.locked ≠ 0 := by
        rw [← inv.countedLength]
        exact Nat.pos_iff_ne_zero.mp (List.length_pos_of_mem isCounted)
      rw [if_pos ⟨nonzero, inv.held c isPc⟩] at taken
      cases taken
      exact inv.effect (.unlock isPc)
    · cases taken
  | run c sameCtx => exact inv_coRun inv taken

omit [DecidableEq C] in
theorem inv_coStart : CoInv (CoState.start : CoState C) where
  owner := fun _ => ⟨nofun, nofun⟩
  popping := nofun
  free := ⟨fun _ => rfl, fun _ => rfl⟩
  offered := ⟨nofun, fun nonzero => absurd rfl nonzero⟩
  saw := nofun
  countedNodup := List.nodup_nil
  countedLength := rfl
  countedMem := fun _ => ⟨nofun, nofun⟩
  held := nofun
  fine := nofun
  offeredEmpty := nofun
  movingEmpty := nofun
  offeringEmpty := nofun
  takingSome := nofun
  records := fun _ => ⟨nofun, fun isRecord => absurd isRecord.2.1 Bool.false_ne_true⟩
  recordsNodup := List.nodup_nil
  wakesOnce := nofun
  waking := nofun
  oneWaker := nofun
  offerer := nofun
  waker := nofun

theorem inv_coReached (reached : (coMutexSystem C).ReachedBy (fun _ _ => True) s) : CoInv s := by
  refine reached.invariant CoInv ?_ ?_
  · rintro _ rfl
    exact inv_coStart
  · exact fun _ _ _ inv _ taken => inv_coNext inv taken

/-! ### What is promised -/

/-- No call of lock or unlock is in progress: whoever is in one is parked, and not being woken. -/
def CoState.Quiescent (s : CoState C) : Prop :=
  ∀ c, s.pc c = .idle ∨ s.pc c = .holding ∨ s.pc c = .parked ∧ s.wakes c = 0

structure CoMutexSafe (s : CoState C) : Prop where
  exclusive : ∀ c d, s.pc c = .holding → s.pc d = .holding → c = d
  /-- `pop_waiter` has something to return in the slow path. -/
  popsSome : ∀ c, s.pc c = .popTake .lock → s.toPop ≠ []
  /-- Who finds itself popped finds its own record. -/
  popsOwn : ∀ c record rest, s.pc c = .popTake .lock → s.toPop = record :: rest →
    record.co = c → record = s.record c
  /-- A record that is woken is the current one of a coroutine that waits, has not been woken
  before, and its coroutine is the only one that can return from lock. -/
  wakes : ∀ c side record, s.pc c = .wake side record →
    record = s.record record.co ∧ (s.pc record.co).waits = true ∧ s.wakes record.co = 0 ∧
      s.token = .own record.co
  wakesOnce : ∀ c, (s.pc c).waits = true → s.wakes c ≤ 1
  returns : ∀ c label s', s.next label = some s' → s.pc c ≠ .holding → s'.pc c = .holding →
    s.token = .own c ∨ s.locked = 0 ∧ s.token = .free
  fine : ∀ c, s.pc c ≠ .crashed
  strandsNobody : s.Quiescent → (∀ c, s.pc c ≠ .holding) → ∀ c, s.pc c ≠ .parked

omit [DecidableEq C] in
theorem strands_nobody (inv : CoInv s) (quiescent : s.Quiescent)
    (unheld : ∀ c, s.pc c ≠ .holding) (c : C) : s.pc c ≠ .parked := by
  intro isParked
  have atRest (d : C) : s.pc d = .idle ∨ s.pc d = .parked ∧ s.wakes d = 0 := by
    rcases quiescent d with idle | holding | parked
    · exact .inl idle
    · exact absurd holding (unheld d)
    · exact .inr parked
  -- Somebody is counted, so the right to go on is somewhere.
  have isCounted := (inv.countedMem c).mpr (by rw [isParked]; rfl)
  cases isToken : s.token with
  | free =>
    have zero := inv.free.mp isToken
    rw [← inv.countedLength] at zero
    rw [List.length_eq_zero_iff.mp zero] at isCounted
    cases isCounted
  | handoff =>
    obtain ⟨d, offers⟩ := inv.offerer isToken
    rcases atRest d with isPc | ⟨isPc, -⟩ <;> rw [isPc] at offers <;> cases offers
  | own d =>
    rcases (inv.owner d).mp isToken with owns | ⟨waits, popped⟩
    · rcases atRest d with isPc | ⟨isPc, -⟩ <;> rw [isPc] at owns <;> cases owns
    · rcases atRest d with isPc | ⟨isPc, asleep⟩
      · rw [isPc] at waits
        cases waits
      · obtain ⟨e, record, waking, -⟩ := inv.waker d waits popped asleep
        rcases atRest e with isPc | ⟨isPc, -⟩ <;> rw [isPc] at waking <;> cases waking

theorem goto_not_holding {pc : CoPc C} (notHolding : pc ≠ .holding) :
    (s.goto c pc).pc c ≠ .holding := by
  rw [s.goto_pc]
  exact notHolding

/-- Only who has the right to go on returns from lock, or who finds the mutex free. -/
theorem run_holding (inv : CoInv s) (taken : s.run c sameCtx = some s') (after : s'.pc c = .holding) :
    s.token = .own c ∨ s.locked = 0 ∧ s.token = .free := by
  have owner (owns : (s.pc c).owns = true) := (inv.owner c).mpr (.inl owns)
  have free (zero : s.locked = 0) : s.token = .own c ∨ s.locked = 0 ∧ s.token = .free :=
    .inr ⟨zero, inv.free.mpr zero⟩
  have spins (waiters i : Nat) : (s.goto c (CoState.spinHead waiters i)).pc c ≠ .holding := by
    apply goto_not_holding
    unfold CoState.spinHead
    split
    · intro same
      cases same
    · intro same
      cases same
  unfold CoState.run at taken
  split at taken
  case h_4 i isPc =>
    grind
  case h_6 i isPc =>
    grind
  case h_7 isPc =>
    cases taken
    split at after
    · next zero => exact free zero
    · simp [CoState.queue] at after
  case h_13 isPc =>
    split at taken
    · cases taken
    · next woken =>
      have waits : (s.pc c).waits = true := by rw [isPc]; rfl
      exact .inl ((inv.owner c).mpr
        (.inr ⟨waits, ((inv.wakesOnce c waits).resolve_left woken).2⟩))
  -- Where a coroutine pops, or lets go of the mutex, it has the right to go on.
  case h_14 isPc => exact .inl (owner (by rw [isPc]; rfl))
  case h_15 isPc => exact .inl (owner (by rw [isPc]; rfl))
  case h_16 isPc => exact .inl (owner (by rw [isPc]; rfl))
  case h_18 isPc => exact .inl (owner (by rw [isPc]; rfl))
  case h_19 isPc => exact .inl (owner (by rw [isPc]; rfl))
  -- The other steps lead to other places.
  case h_17 side record isPc =>
    cases taken
    cases side <;> simp [CoState.wakeCo] at after
  all_goals cases taken
  case h_8 => simp [CoState.pushWaiter] at after
  case h_12 | h_22 =>
    split at after
    · simp [CoState.claim] at after
    · rw [s.goto_pc] at after
      cases after
  all_goals
    rw [s.goto_pc] at after
    split at after <;> cases after

theorem returns_owner (inv : CoInv s) (taken : s.next label = some s') (before : s.pc c ≠ .holding)
    (after : s'.pc c = .holding) :
    s.token = .own c ∨ s.locked = 0 ∧ s.token = .free := by
  cases label with
  | lock d =>
    simp only [CoState.next] at taken
    split at taken
    · cases taken
      dsimp only at after
      by_cases own : c = d
      · rw [own, Function.update_self] at after
        cases after
      · rw [Function.update_of_ne own] at after
        exact absurd after before
    · cases taken
  | unlock d =>
    simp only [CoState.next] at taken
    split at taken
    · split at taken <;> cases taken
      all_goals
        by_cases own : c = d
        · simp [CoState.goto, own] at after
        · simp only [CoState.goto, Function.update_of_ne own] at after
          exact absurd after before
    · cases taken
  | run d sameCtx =>
    by_cases own : c = d
    · subst own
      exact run_holding inv taken after
    · rw [CoState.run_pc_other own taken] at after
      exact absurd after before

/-- In every interleaving the mutex excludes, wakes each record once, and strands nobody. -/
theorem co_mutex_safe (C : Type) [DecidableEq C] (s : CoState C)
    (reached : (coMutexSystem C).ReachedBy (fun _ _ => True) s) : CoMutexSafe s := by
  have inv := inv_coReached reached
  constructor
  · intro c d isC isD
    have ofC := (inv.owner c).mpr (.inl (by rw [isC]; rfl))
    have ofD := (inv.owner d).mpr (.inl (by rw [isD]; rfl))
    exact CoToken.own.inj (ofC.symm.trans ofD)
  · exact inv.takingSome
  · intro c record rest _ isList isOwn
    have isRecord := (inv.records record).mp
      (by rw [isList]; exact List.mem_append_right _ List.mem_cons_self)
    rcases record with ⟨co, call⟩
    dsimp only at isOwn isRecord
    subst isOwn
    rw [isRecord.1]
    rfl
  · intro c side record isPc
    obtain ⟨isCall, waits, popped, asleep⟩ := inv.waking c record (by rw [isPc]; rfl)
    refine ⟨?_, waits, asleep, (inv.owner record.co).mpr (.inr ⟨waits, popped⟩)⟩
    rw [CoState.record, ← isCall]
  · intro c waits
    rcases inv.wakesOnce c waits with zero | ⟨one, -⟩ <;> omega
  · exact fun c label s' taken before after => returns_owner inv taken before after
  · exact inv.fine
  · exact strands_nobody inv

/-- One coroutine locks, another one parks, and the first one unlocks up to the wake-up. -/
def unlockWithParked : List (CoStep Bool) :=
  [.lock true, .run true false, .lock false, .run false false, .run false true, .run false false,
    .run false false, .run false false, .unlock true, .run true false, .run true false,
    .run true false, .run true false]

theorem co_mutex_safe_parked :
    ∃ s : CoState Bool, CoMutexSafe s ∧ s.pc false = .parked ∧
      s.pc true = .wake .unlock ⟨false, 1⟩ := by
  obtain ⟨s, reached, isState⟩ : ∃ s, (coMutexSystem Bool).ReachedBy (fun _ _ => True) s ∧
      s.pc false = .parked ∧ s.pc true = .wake .unlock ⟨false, 1⟩ :=
    LabelledSystem.exists_reachedBy unlockWithParked (by decide +kernel)
  exact ⟨s, co_mutex_safe Bool s reached, isState⟩

end QemuGzvm.Util
