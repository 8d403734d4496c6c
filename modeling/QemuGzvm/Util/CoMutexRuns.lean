import QemuGzvm.Util.CoMutex

/-!
Contract: the invariant of the coroutine mutex.

Owns:
- what ties the counter, the two lists and the handoff to the places of the coroutines;
- that every step keeps it.

The right to go on is at one place at a time: with one coroutine, in `handoff`, or nowhere. A
coroutine has it where it may change `to_pop`, and from when its record is popped on.
-/

namespace QemuGzvm.Util

open QemuGzvm.Library

variable {C : Type}

namespace CoPc

/-- The coroutine has the right to go on, by where it is. -/
def owns : CoPc C → Bool
  | .holding | .popLook _ | .popMove _ | .popTake _ | .fetchDec | .setHandoff => true
  | _ => false

/-- The coroutine's record has been pushed, and its call of lock has not returned. -/
def waits : CoPc C → Bool
  | .readHandoff | .slowToPop _ | .slowFromPush _ | .slowCas _ | .parked | .popLook .lock
  | .popMove .lock | .popTake .lock | .wake .lock _ => true
  | _ => false

def counts : CoPc C → Bool
  | .push | .holding | .fetchDec => true
  | pc => pc.waits

/-- The value of `handoff` that the coroutine has read or written. -/
def saw : CoPc C → Option Nat
  | .slowToPop h | .slowFromPush h | .slowCas h | .unlockToPop h | .unlockFromPush h
  | .unlockCas h => some h
  | _ => none

/-- The coroutine is about to take back what it has offered. -/
def offers (handoff : Nat) : CoPc C → Bool
  | .unlockToPop h | .unlockCas h => h == handoff
  | _ => false

def wakes : CoPc C → Option (CoWaitRecord C)
  | .wake _ record => some record
  | _ => none

end CoPc

structure CoTokens (s : CoState C) : Prop where
  owner : ∀ c, s.token = .own c ↔
    (s.pc c).owns = true ∨ (s.pc c).waits = true ∧ s.popped c = true
  popping : ∀ c, (s.pc c).owns = true → (s.pc c).waits = true → s.popped c = false
  free : s.token = .free ↔ s.locked = 0
  offered : s.token = .handoff ↔ s.handoff ≠ 0
  saw : ∀ c, (s.pc c).saw ≠ some 0
  countedNodup : s.counted.Nodup
  countedLength : s.counted.length = s.locked
  countedMem : ∀ c, c ∈ s.counted ↔ (s.pc c).counts = true
  held : ∀ c, s.pc c = .holding → s.holder = some c
  fine : ∀ c, s.pc c ≠ .crashed

structure CoLists (s : CoState C) : Prop where
  offeredEmpty : s.token = .handoff → s.toPop = []
  movingEmpty : ∀ c side, s.pc c = .popMove side → s.toPop = []
  offeringEmpty : ∀ c, s.pc c = .setHandoff → s.toPop = []
  takingSome : ∀ c, s.pc c = .popTake .lock → s.toPop ≠ []
  records : ∀ r, r ∈ s.fromPush ++ s.toPop ↔
    r.call = s.call r.co ∧ (s.pc r.co).waits = true ∧ s.popped r.co = false
  recordsNodup : (s.fromPush ++ s.toPop).Nodup

structure CoWakes (s : CoState C) : Prop where
  wakesOnce : ∀ c, (s.pc c).waits = true → s.wakes c = 0 ∨ s.wakes c = 1 ∧ s.popped c = true
  waking : ∀ c r, (s.pc c).wakes = some r → r.call = s.call r.co ∧ (s.pc r.co).waits = true ∧
    s.popped r.co = true ∧ s.wakes r.co = 0
  oneWaker : ∀ c d r r', (s.pc c).wakes = some r → (s.pc d).wakes = some r' → c = d

/-- Whoever is offered or popped is going to be dealt with. -/
structure CoLive (s : CoState C) : Prop where
  offerer : s.token = .handoff → ∃ c, (s.pc c).offers s.handoff = true
  waker : ∀ c, (s.pc c).waits = true → s.popped c = true → s.wakes c = 0 →
    ∃ d r, (s.pc d).wakes = some r ∧ r.co = c

structure CoInv (s : CoState C) : Prop extends CoTokens s, CoLists s, CoWakes s, CoLive s

variable [DecidableEq C] {s s' : CoState C} {c : C}

/-! ### What a step of one coroutine leaves to the others -/

omit [DecidableEq C] in
/-- A step of `c`: what was going to be dealt with still is, by another one or by `c`. -/
theorem CoLive.step (live : CoLive s) (c : C) (others : ∀ d, d ≠ c → s'.pc d = s.pc d)
    (offers : s'.token = .handoff → (s'.pc c).offers s'.handoff = true ∨
      s.token = .handoff ∧ s'.handoff = s.handoff ∧ (s.pc c).offers s.handoff = false)
    (wakes : ∀ d, (s'.pc d).waits = true → s'.popped d = true → s'.wakes d = 0 →
      (∃ r, (s'.pc c).wakes = some r ∧ r.co = d) ∨ ((s.pc d).waits = true ∧ s.popped d = true ∧
        s.wakes d = 0 ∧ ∀ r, (s.pc c).wakes = some r → r.co ≠ d)) : CoLive s' := by
  constructor
  · intro offered
    rcases offers offered with own | ⟨before, same, notOwn⟩
    · exact ⟨c, own⟩
    · obtain ⟨d, isOfferer⟩ := live.offerer before
      have other : d ≠ c := by
        rintro rfl
        simp [notOwn] at isOfferer
      exact ⟨d, by rw [others d other, same]; exact isOfferer⟩
  · intro d waits popped asleep
    rcases wakes d waits popped asleep with ⟨r, own, isCo⟩ | ⟨waits, popped, asleep, notOwn⟩
    · exact ⟨c, r, own, isCo⟩
    · obtain ⟨e, r, waking, isCo⟩ := live.waker d waits popped asleep
      have other : e ≠ c := by
        rintro rfl
        exact notOwn r waking isCo
      exact ⟨e, r, by rw [others e other]; exact waking, isCo⟩

omit [DecidableEq C] in
/-- The coroutine that may change `to_pop` is the only one with the right to go on. -/
theorem CoTokens.alone (tokens : CoTokens s) (owns : (s.pc c).owns = true) {d : C}
    (other : d ≠ c) : (s.pc d).owns = false ∧ ((s.pc d).waits = true → s.popped d = false) := by
  have isToken := (tokens.owner c).mpr (.inl owns)
  have notOwner := tokens.owner d
  grind

omit [DecidableEq C] in
theorem CoLists.records_rest (lists : CoLists s) {first : CoWaitRecord C}
    {rest : List (CoWaitRecord C)} (isList : s.toPop = first :: rest) (r : CoWaitRecord C) :
    r ∈ s.fromPush ++ rest ↔ r.call = s.call r.co ∧ (s.pc r.co).waits = true ∧
      s.popped r.co = false ∧ r.co ≠ first.co := by
  have isFirst := lists.records first
  have isMember := lists.records r
  have nodup := lists.recordsNodup
  have same : r = first ↔ r.co = first.co ∧ r.call = first.call := by
    cases r
    cases first
    simp
  grind

/-- The rights and duties of a coroutine, by where it is. -/
def CoPc.profile (pc : CoPc C) : Bool × Bool × Bool × Option (CoWaitRecord C) :=
  (pc.owns, pc.waits, pc.counts, pc.wakes)

/-- What has to hold where a coroutine gets without a change of the mutex. -/
def CoPc.Fits (pc : CoPc C) (s : CoState C) : Prop :=
  match pc with
  | .popMove _ | .setHandoff => s.toPop = []
  | .popTake .lock => s.toPop ≠ []
  | .slowToPop h | .slowFromPush h | .slowCas h | .unlockToPop h | .unlockFromPush h
  | .unlockCas h => h ≠ 0
  | .holding | .crashed => False
  | _ => True

theorem CoInv.quiet (inv : CoInv s) {old pc : CoPc C} (isPc : s.pc c = old)
    (profile : pc.profile = old.profile) (fits : pc.Fits s)
    (offers : s.token = .handoff → old.offers s.handoff = true → pc.offers s.handoff = true) :
    CoInv (s.goto c pc) := by
  subst isPc
  simp only [CoPc.profile, Prod.mk.injEq] at profile
  have saw : pc.saw ≠ some 0 := by
    cases pc <;> first | exact fun zero => fits (Option.some.inj zero) | nofun
  have moving (side : PopSide) (isPc : pc = .popMove side) : s.toPop = [] := by
    subst isPc
    exact fits
  have offering (isPc : pc = .setHandoff) : s.toPop = [] := by
    subst isPc
    exact fits
  have taking (isPc : pc = .popTake .lock) : s.toPop ≠ [] := by
    subst isPc
    exact fits
  have notHolding : pc ≠ .holding := by
    rintro rfl
    exact fits
  have fine : pc ≠ .crashed := by
    rintro rfl
    exact fits
  clear fits
  obtain ⟨tokens, lists, wakes, live⟩ := inv
  refine ⟨?_, ?_, ?_, ?_⟩
  · cases tokens
    constructor <;> simp only [CoState.goto, Function.update_apply] <;> grind
  · cases lists
    constructor <;> simp only [CoState.goto, Function.update_apply] <;> grind
  · cases wakes
    constructor <;> simp only [CoState.goto, Function.update_apply] <;> grind
  · constructor
    · intro offered
      obtain ⟨d, isOfferer⟩ := live.offerer offered
      have kept := offers offered
      exact ⟨d, by simp only [CoState.goto, Function.update_apply]; grind⟩
    · simp only [CoState.goto, Function.update_apply]
      intro d waits popped asleep
      obtain ⟨e, r, waking, isCo⟩ := live.waker d (by grind) popped asleep
      exact ⟨e, r, by grind, isCo⟩

/-- A coroutine that has not offered the mutex goes on to another place. -/
theorem CoInv.quietly (inv : CoInv s) {old pc : CoPc C} (isPc : s.pc c = old)
    (profile : pc.profile = old.profile) (fits : pc.Fits s)
    (notOffering : old.offers s.handoff = false) : CoInv (s.goto c pc) :=
  inv.quiet isPc profile fits fun _ offers => absurd (notOffering.symm.trans offers) nofun

attribute [local grind] CoPc.owns CoPc.waits CoPc.counts CoPc.saw CoPc.wakes CoPc.offers

/-! ### Steps that change the mutex -/

/-- The steps of `c` that change the mutex, with what is known of it where they are taken. -/
inductive CoState.Effect (s : CoState C) (c : C) : CoState C → Prop
  | lock (isPc : s.pc c = .idle) :
    s.Effect c { s with
      pc := Function.update s.pc c (.lockCas 0)
      call := Function.update s.call c (s.call c + 1) }
  | acquire (isPc : (∃ i, s.pc c = .lockCas i) ∨ s.pc c = .fetchInc) (zero : s.locked = 0)
    (nobody : s.counted = []) : s.Effect c (s.acquire c)
  | queue (isPc : s.pc c = .fetchInc) (taken : s.locked ≠ 0) : s.Effect c (s.queue c)
  | push (isPc : s.pc c = .push)
    (isOwn : ∀ r, r = s.record c ↔ r.co = c ∧ r.call = s.call c) : s.Effect c (s.pushWaiter c)
  | claim {side : PopSide} {h : Nat}
    (isPc : s.pc c = if side = .lock then .slowCas h else .unlockCas h) (hit : s.handoff = h)
    (offered : s.token = .handoff) : s.Effect c (s.claim c side)
  | move {side : PopSide} (isPc : s.pc c = .popMove side) (isToken : s.token = .own c)
    (own : side = .lock → s.record c ∈ s.fromPush ++ s.toPop)
    (alone : ∀ d, d ≠ c → (s.pc d).owns = false ∧ ((s.pc d).waits = true → s.popped d = false)) :
    s.Effect c (s.moveWaiters c side)
  | popOwn {rest : List (CoWaitRecord C)} (isPc : s.pc c = .popTake .lock)
    (isList : s.toPop = s.record c :: rest) (notPopped : s.popped c = false)
    (alone : ∀ d, d ≠ c → (s.pc d).owns = false ∧ ((s.pc d).waits = true → s.popped d = false))
    (isRest : ∀ r, r ∈ s.fromPush ++ rest ↔ r.call = s.call r.co ∧ (s.pc r.co).waits = true ∧
      s.popped r.co = false ∧ r.co ≠ c) : s.Effect c (s.popOwn c rest)
  | hold (isPc : s.pc c = .parked) (woken : s.wakes c ≠ 0) (popped : s.popped c = true) :
    s.Effect c (s.hold c)
  | unlock (isPc : s.pc c = .holding) :
    s.Effect c { s with pc := Function.update s.pc c .fetchDec, holder := none }
  | release (isPc : s.pc c = .fetchDec) : s.Effect c (s.release c)
  | offer (isPc : s.pc c = .setHandoff) (nonzero : nextSequence s.sequence ≠ 0) :
    s.Effect c (s.offer c)

theorem CoTokens.effect (tokens : CoTokens s) (effect : s.Effect c s') : CoTokens s' := by
  cases tokens
  cases effect <;> constructor <;>
    simp only [CoState.acquire, CoState.queue, CoState.pushWaiter, CoState.claim,
      CoState.moveWaiters, CoState.popOwn, CoState.hold, CoState.release, CoState.offer,
      Function.update_apply] <;> grind -ring -linarith

theorem CoLists.effect (lists : CoLists s) (effect : s.Effect c s') : CoLists s' := by
  cases lists
  cases effect <;> constructor <;>
    simp only [CoState.acquire, CoState.queue, CoState.pushWaiter, CoState.claim,
      CoState.moveWaiters, CoState.popOwn, CoState.hold, CoState.release, CoState.offer,
      Function.update_apply] <;> grind -ring -linarith

theorem CoWakes.effect (wakes : CoWakes s) (effect : s.Effect c s') : CoWakes s' := by
  cases wakes
  cases effect <;> constructor <;>
    simp only [CoState.acquire, CoState.queue, CoState.pushWaiter, CoState.claim,
      CoState.moveWaiters, CoState.popOwn, CoState.hold, CoState.release, CoState.offer,
      Function.update_apply] <;> grind -ring -linarith

theorem CoInv.effect (inv : CoInv s) (effect : s.Effect c s') : CoInv s' := by
  obtain ⟨tokens, lists, wakes, live⟩ := inv
  refine ⟨tokens.effect effect, lists.effect effect, wakes.effect effect, live.step c ?_ ?_ ?_⟩
  all_goals
    cases effect <;>
      simp only [CoState.acquire, CoState.queue, CoState.pushWaiter, CoState.claim,
      CoState.moveWaiters, CoState.popOwn, CoState.hold, CoState.release, CoState.offer,
      Function.update_apply] <;> grind -ring -linarith

section Steps

variable (inv : CoInv s) {side : PopSide} {rest : List (CoWaitRecord C)} {record : CoWaitRecord C}
include inv

theorem inv_acquired (isPc : (∃ i, s.pc c = .lockCas i) ∨ s.pc c = .fetchInc)
    (zero : s.locked = 0) : CoInv (s.acquire c) :=
  inv.effect (.acquire isPc zero (List.length_eq_zero_iff.mp (inv.countedLength.trans zero)))

theorem inv_pushWaiter (isPc : s.pc c = .push) : CoInv (s.pushWaiter c) := by
  refine inv.effect (.push isPc fun r => ?_)
  cases r
  simp [CoState.record]

/-- A coroutine that waits, or the one that has offered it, takes the right to go on. -/
theorem inv_claim {h : Nat} (isPc : s.pc c = if side = .lock then .slowCas h else .unlockCas h)
    (hit : s.handoff = h) : CoInv (s.claim c side) := by
  refine inv.effect (.claim isPc hit (inv.offered.mpr ?_))
  rintro zero
  apply inv.saw c
  rw [isPc, ← hit, zero]
  split <;> rfl

theorem inv_moveWaiters (isPc : s.pc c = .popMove side) : CoInv (s.moveWaiters c side) := by
  have owns : (s.pc c).owns = true := congrArg CoPc.owns isPc
  refine inv.effect (.move isPc ((inv.owner c).mpr (.inl owns)) ?_ fun _ => inv.alone owns)
  -- Lock pops when its own record has been pushed, and not been popped.
  rintro rfl
  have waits : (s.pc c).waits = true := congrArg CoPc.waits isPc
  exact (inv.records (s.record c)).mpr ⟨rfl, waits, inv.popping c owns waits⟩

theorem inv_popOwn (isPc : s.pc c = .popTake .lock) (isList : s.toPop = s.record c :: rest) :
    CoInv (s.popOwn c rest) := by
  have owns : (s.pc c).owns = true := congrArg CoPc.owns isPc
  have notPopped := inv.popping c owns (congrArg CoPc.waits isPc)
  exact inv.effect (.popOwn isPc isList notPopped (fun _ => inv.alone owns)
    (inv.records_rest isList))

omit inv in
theorem tokens_popOther (tokens : CoTokens s) (isPc : s.pc c = .popTake side)
    (waits : (s.pc record.co).waits = true) (other : record.co ≠ c) :
    CoTokens (s.popOther c side record rest) := by
  cases tokens
  cases side <;> constructor <;> simp only [CoState.popOther, Function.update_apply] <;> grind

/-- The coroutine whose record is popped is the next to go on. -/
theorem inv_popOther (isPc : s.pc c = .popTake side) (isList : s.toPop = record :: rest)
    (other : record.co ≠ c) : CoInv (s.popOther c side record rest) := by
  obtain ⟨tokens, lists, wakes, live⟩ := inv
  have isRecord := (lists.records record).mp (by simp [isList])
  -- Nobody has been popped, and so nobody is going to be woken.
  have nonePopped (d : C) (waits : (s.pc d).waits = true) : s.popped d = false := by
    by_cases own : d = c
    · rw [own] at waits ⊢
      exact tokens.popping c (by rw [isPc]; rfl) waits
    · exact (tokens.alone (by rw [isPc]; rfl) own).2 waits
  have noneWaking (d : C) : (s.pc d).wakes = none := by
    cases isWaking : (s.pc d).wakes with
    | none => rfl
    | some r =>
      have waking := wakes.waking d r isWaking
      rw [nonePopped _ waking.2.1] at waking
      exact absurd waking.2.2.1 Bool.false_ne_true
  refine ⟨tokens_popOther tokens isPc isRecord.2.1 other, ?_, ?_, live.step c ?_ ?_ ?_⟩
  · have isRest := lists.records_rest isList
    have alone := @tokens.alone _ _ c (by rw [isPc]; rfl)
    cases lists
    cases side <;> constructor <;> simp only [CoState.popOther, Function.update_apply] <;> grind
  · cases wakes
    cases side <;> constructor <;> simp only [CoState.popOther, Function.update_apply] <;> grind
  all_goals cases side <;> simp only [CoState.popOther, Function.update_apply] <;> grind

theorem inv_wakeCo (isPc : s.pc c = .wake side record) : CoInv (s.wakeCo c side record) := by
  obtain ⟨tokens, lists, wakes, live⟩ := inv
  have isRecord := wakes.waking c record (by rw [isPc]; rfl)
  have onlyOne (d : C) (popped : s.popped d = true) (waits : (s.pc d).waits = true) :
      d = record.co := by
    have isToken := (tokens.owner d).mpr (.inr ⟨waits, popped⟩)
    rw [(tokens.owner record.co).mpr (.inr ⟨isRecord.2.1, isRecord.2.2.1⟩),
      CoToken.own.injEq] at isToken
    exact isToken.symm
  cases side
  all_goals
    refine ⟨?_, ?_, ?_, live.step c ?_ ?_ ?_⟩
    · cases tokens
      constructor <;> simp only [CoState.wakeCo, Function.update_apply] <;> grind
    · cases lists
      constructor <;> simp only [CoState.wakeCo, Function.update_apply] <;> grind
    · cases wakes
      constructor <;> simp only [CoState.wakeCo, Function.update_apply] <;> grind
    all_goals simp only [CoState.wakeCo, Function.update_apply]; grind

theorem inv_hold (isPc : s.pc c = .parked) (woken : s.wakes c ≠ 0) : CoInv (s.hold c) := by
  have waits : (s.pc c).waits = true := congrArg CoPc.waits isPc
  exact inv.effect (.hold isPc woken ((inv.wakesOnce c waits).resolve_left woken).2)

omit inv [DecidableEq C] in
theorem nextSequence_ne_zero (sequence : Nat) : nextSequence sequence ≠ 0 := by
  unfold nextSequence
  split
  · decide
  · assumption

theorem inv_offer (isPc : s.pc c = .setHandoff) : CoInv (s.offer c) :=
  inv.effect (.offer isPc (nextSequence_ne_zero s.sequence))

end Steps

end QemuGzvm.Util
