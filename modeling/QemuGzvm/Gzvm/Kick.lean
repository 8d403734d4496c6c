import QemuGzvm.Library.Transition

/-!
Contract: kicking a vCPU out of `GZVM_RUN` (`gzvm_cpu_exec` of `accel/gzvm/gzvm.c`,
the signal code of `accel/gzvm/gzvm-vcpu.c`, `qemu_wait_io_event_common` and
`cpus_kick_thread` of `system/cpus.c`, `queue_work_on_cpu` of `cpu-common.c`).

Owns:
- one vCPU thread and any number of threads that queue work on it, as atomic steps
  over `immediate_exit`, `exit_request`, `thread_kicked`, the pending `SIG_IPI` and
  the work list;
- `LostKick`, and the condition on steps under which no run reaches it.

The store `immediate_exit = 0` at the top of `gzvm_cpu_exec` comes after
`thread_kicked` was cleared. A `SIG_IPI` that is handled in between is forgotten,
and `thread_kicked` then keeps later kicks from being sent.
-/

namespace QemuGzvm.Gzvm

open QemuGzvm.Library

/-- Where the vCPU thread is: what it does next. -/
inductive VcpuPc where
  | clearImmediateExit
  | bqlUnlock
  | testExitRequest
  | kickSelf
  | run
  | bqlLock (interrupted : Bool)
  | clearExitRequest (interrupted : Bool)
  /-- `gzvm_eat_signals`: the store, `sigtimedwait`, the test of the loop. -/
  | eatStore
  | eatWait
  | eatTest
  | clearThreadKicked
  | drain
deriving DecidableEq, Repr

/-- Where a thread is in `queue_work_on_cpu`, and with which item. -/
inductive ThreadPhase where
  | idle
  /-- The item is on the list; `cpu->thread_kicked` is tested next. -/
  | appended (item : Nat)
  /-- The test found it clear; the store is next. -/
  | passed (item : Nat)
  /-- The store is done; `pthread_kill` is next. -/
  | stored (item : Nat)
deriving DecidableEq, Repr

def ThreadPhase.item : ThreadPhase → Option Nat
  | .idle => none
  | .appended item | .passed item | .stored item => some item

structure KickState where
  pc : VcpuPc := .clearImmediateExit
  immediateExit : Bool := false
  exitRequest : Bool := false
  threadKicked : Bool := false
  sigPending : Bool := false
  workList : List Nat := []
  /-- The items whose `queue_work_on_cpu` has returned. -/
  returned : List Nat := []
  /-- Items are numbered as they are queued. -/
  nextItem : Nat := 0
  threads : Nat → ThreadPhase := fun _ => .idle

inductive KickStep where
  /-- The next step of the vCPU thread; `GZVM_RUN` returns for another reason than
  a kick if `otherExit` is set. -/
  | vcpu (otherExit : Bool)
  /-- `gzvm_ipi_signal`, run by the vCPU thread between two of its steps. -/
  | signalHandler
  /-- `cpu_exit`, by any thread. -/
  | cpuExit
  | thread (id : Nat)
deriving DecidableEq, Repr

def vcpuStep (s : KickState) (otherExit : Bool) : Option KickState :=
  match s.pc with
  | .clearImmediateExit => some { s with pc := .bqlUnlock, immediateExit := false }
  | .bqlUnlock => some { s with pc := .testExitRequest }
  | .testExitRequest => some { s with pc := if s.exitRequest then .kickSelf else .run }
  | .kickSelf => some { s with pc := .run, immediateExit := true }
  | .run =>
    if s.immediateExit || s.sigPending then some { s with pc := .bqlLock true }
    else if otherExit then some { s with pc := .bqlLock false }
    else none
  | .bqlLock interrupted => some { s with pc := .clearExitRequest interrupted }
  | .clearExitRequest interrupted =>
    some { s with pc := if interrupted then .eatStore else .clearThreadKicked,
                  exitRequest := false }
  | .eatStore => some { s with pc := .eatWait, immediateExit := false }
  | .eatWait => some { s with pc := .eatTest, sigPending := false }
  | .eatTest => some { s with pc := if s.sigPending then .eatWait else .clearThreadKicked }
  | .clearThreadKicked => some { s with pc := .drain, threadKicked := false }
  | .drain =>
    match s.workList with
    | [] => some { s with pc := .clearImmediateExit }
    | _ :: rest => some { s with workList := rest }

/-- The next step of a thread in `queue_work_on_cpu` and `cpus_kick_thread`. -/
def threadStep (s : KickState) (id : Nat) : KickState :=
  match s.threads id with
  | .idle =>
    { s with
      workList := s.workList ++ [s.nextItem]
      nextItem := s.nextItem + 1
      threads := Function.update s.threads id (.appended s.nextItem) }
  | .appended item =>
    if s.threadKicked then
      { s with
        returned := s.returned ++ [item]
        threads := Function.update s.threads id .idle }
    else { s with threads := Function.update s.threads id (.passed item) }
  | .passed item =>
    { s with
      threadKicked := true
      threads := Function.update s.threads id (.stored item) }
  | .stored item =>
    { s with
      sigPending := true
      returned := s.returned ++ [item]
      threads := Function.update s.threads id .idle }

def kickStep (s : KickState) : KickStep → Option KickState
  | .vcpu otherExit => vcpuStep s otherExit
  | .signalHandler =>
    if s.sigPending then some { s with sigPending := false, immediateExit := true } else none
  | .cpuExit => some { s with exitRequest := true }
  | .thread id => some (threadStep s id)

def kickSystem : LabelledSystem KickState KickStep :=
  .ofNext {} kickStep

/-- A completed `queue_work_on_cpu` waits for a vCPU that nothing makes leave the
guest. -/
def LostKick (s : KickState) : Prop :=
  s.pc = .run ∧ (∃ item ∈ s.workList, item ∈ s.returned) ∧ s.sigPending = false ∧
    s.immediateExit = false

/-- The condition on a step. The store at the top of `gzvm_cpu_exec` erases no
`immediate_exit` while `thread_kicked` is set and no `SIG_IPI` is pending; and no thread returns
early from `cpus_kick_thread` while another is between its store and its signal. -/
def KickKept (s : KickState) : KickStep → Prop
  | .vcpu _ => s.pc = .clearImmediateExit → s.immediateExit = true → s.threadKicked = true →
      s.sigPending = true
  | .thread id => ∀ item, s.threads id = .appended item → s.threadKicked = true →
      ∀ other sent, s.threads other ≠ .stored sent
  | _ => True

/-! ### The invariant -/

/-- Between the end of the drain and `GZVM_RUN`, and inside it. -/
def VcpuPc.TowardsRun : VcpuPc → Prop
  | .clearImmediateExit | .bqlUnlock | .testExitRequest | .kickSelf | .run => True
  | _ => False

/-- As long as `thread_kicked` is set, something is on its way to the vCPU. -/
def KickLive (s : KickState) : Prop :=
  s.threadKicked = true →
    s.sigPending = true ∨ s.immediateExit = true ∨ ∃ id item, s.threads id = .stored item

/-- What a completed item on the list implies. -/
def ItemsKicked (s : KickState) : Prop :=
  ∀ item ∈ s.workList, item ∈ s.returned →
    s.threadKicked = true ∧ (s.sigPending = true ∨ s.immediateExit = true)

/-- A thread about to signal for an item on the list has set `thread_kicked`. -/
def StoresKicked (s : KickState) : Prop :=
  ∀ id item, s.threads id = .stored item → item ∈ s.workList → s.threadKicked = true

structure Numbered (s : KickState) : Prop where
  returned : ∀ item ∈ s.returned, item < s.nextItem
  threads : ∀ id item, (s.threads id).item = some item → item < s.nextItem

structure KickInv (s : KickState) : Prop where
  numbered : Numbered s
  live : s.pc.TowardsRun ∨ s.pc = .drain → KickLive s
  items : s.pc.TowardsRun → ItemsKicked s
  stores : s.pc.TowardsRun → StoresKicked s

theorem kickInv_init : KickInv {} := by
  refine ⟨⟨fun item member => ?_, fun id item queueing => ?_⟩, fun _ kicked => ?_,
    fun _ item member => ?_, fun _ id item stored => ?_⟩
  · cases member
  · cases queueing
  · cases kicked
  · cases member
  · cases stored

attribute [local grind] VcpuPc.TowardsRun KickLive ItemsKicked StoresKicked ThreadPhase.item

attribute [local grind =] Function.update_apply

attribute [local grind cases] Numbered

variable {s t : KickState} {otherExit : Bool}

/-- The vCPU thread touches neither the other threads nor what they have queued. -/
theorem vcpuStep_frame (taken : vcpuStep s otherExit = some t) :
    t.returned = s.returned ∧ t.nextItem = s.nextItem ∧ t.threads = s.threads := by
  grind [vcpuStep]

theorem vcpuStep_numbered (numbered : Numbered s) (taken : vcpuStep s otherExit = some t) :
    Numbered t := by
  obtain ⟨returned, nextItem, threads⟩ := vcpuStep_frame taken
  constructor
  · simpa only [returned, nextItem] using numbered.returned
  · simpa only [threads, nextItem] using numbered.threads

/-- Nothing is claimed between `GZVM_RUN` and the drain. -/
theorem KickInv.of_outside (numbered : Numbered t) (away : ¬ t.pc.TowardsRun)
    (notDrain : t.pc ≠ .drain) : KickInv t :=
  ⟨numbered, by grind, fun towards => absurd towards away, fun towards => absurd towards away⟩

/-- Towards `GZVM_RUN` a step that takes no kick back keeps the invariant. -/
theorem KickInv.keep (inv : KickInv s) (towards : s.pc.TowardsRun)
    (taken : vcpuStep s otherExit = some t) (kicked : t.threadKicked = s.threadKicked)
    (signal : t.sigPending = s.sigPending)
    (exits : s.immediateExit = true → t.immediateExit = true) (work : t.workList = s.workList) :
    KickInv t := by
  obtain ⟨returned, -, threads⟩ := vcpuStep_frame taken
  have live := inv.live (.inl towards)
  have items := inv.items towards
  have stores := inv.stores towards
  refine ⟨vcpuStep_numbered inv.numbered taken, fun _ => ?_, fun _ => ?_, fun _ => ?_⟩
  · simp only [KickLive, kicked, signal, threads] at live ⊢
    grind
  · simp only [ItemsKicked, kicked, signal, work, returned] at items ⊢
    grind
  · simpa only [StoresKicked, kicked, work, threads] using stores

/-- The vCPU thread's own steps. Towards `GZVM_RUN` only the first one forgets
anything; the drain ends with an empty list. -/
theorem vcpuStep_kickInv (inv : KickInv s) (kept : KickKept s (.vcpu otherExit))
    (taken : vcpuStep s otherExit = some t) : KickInv t := by
  have numbered : Numbered t := vcpuStep_numbered inv.numbered taken
  cases pc : s.pc
  case bqlUnlock | testExitRequest | kickSelf =>
    refine inv.keep (by simp [pc, VcpuPc.TowardsRun]) taken ?_ ?_ ?_ ?_ <;> grind [vcpuStep]
  case run | bqlLock | clearExitRequest | eatStore | eatWait | eatTest =>
    refine .of_outside numbered ?_ ?_ <;> grind [vcpuStep]
  case clearImmediateExit =>
    have towards : s.pc.TowardsRun := by simp [pc, VcpuPc.TowardsRun]
    have live := inv.live (.inl towards)
    have items := inv.items towards
    have stores := inv.stores towards
    simp only [KickKept] at kept
    simp only [vcpuStep, pc, Option.some.injEq] at taken
    subst taken
    exact ⟨numbered, by grind, by grind, by grind⟩
  case clearThreadKicked =>
    simp only [vcpuStep, pc, Option.some.injEq] at taken
    subst taken
    exact ⟨numbered, by grind, by grind, by grind⟩
  case drain =>
    have live := inv.live (.inr pc)
    simp only [vcpuStep, pc] at taken
    split at taken <;> cases taken <;> exact ⟨numbered, by grind, by grind, by grind⟩

/-! ### The threads that queue work -/

theorem threadStep_numbered {id : Nat} (numbered : Numbered s) : Numbered (threadStep s id) := by
  unfold threadStep
  cases phase : s.threads id <;> dsimp only
  case appended item => split <;> constructor <;> grind
  all_goals constructor <;> grind

/-- The steps of `queue_work_on_cpu`, which do not move the vCPU thread. A thread that
returns early relies on a signal that was sent: no other thread is about to send it. -/
theorem threadStep_kickInv {id : Nat} (inv : KickInv s) (kept : KickKept s (.thread id)) :
    KickInv (threadStep s id) := by
  have numberedAfter : Numbered (threadStep s id) := threadStep_numbered inv.numbered
  obtain ⟨numbered, live, items, stores⟩ := inv
  unfold KickKept at kept
  unfold threadStep at numberedAfter ⊢
  cases phase : s.threads id <;> simp only [phase] at numberedAfter kept ⊢
  case idle =>
    refine ⟨numberedAfter, fun towards kicked => ?_, ?_, ?_⟩
    · rcases live towards kicked with sent | exits | ⟨other, item, stored⟩
      · exact .inl sent
      · exact .inr (.inl exits)
      · exact .inr (.inr ⟨other, item, by grind⟩)
    all_goals grind
  case appended item =>
    split <;> rename_i isKicked
    · rw [if_pos isKicked] at numberedAfter
      refine ⟨numberedAfter, ?_, ?_, ?_⟩ <;> grind
    · rw [if_neg isKicked] at numberedAfter
      refine ⟨numberedAfter, ?_, ?_, ?_⟩ <;> grind
  case passed item =>
    refine ⟨numberedAfter, fun _ _ => .inr (.inr ⟨id, item, Function.update_self ..⟩), ?_, ?_⟩
    all_goals grind
  case stored item => refine ⟨numberedAfter, ?_, ?_, ?_⟩ <;> grind

/-! ### Runs -/

theorem kickStep_kickInv {label : KickStep} (inv : KickInv s) (kept : KickKept s label)
    (taken : kickStep s label = some t) : KickInv t := by
  cases label with
  | vcpu otherExit => exact vcpuStep_kickInv inv kept taken
  | signalHandler =>
    obtain ⟨numbered, live, items, stores⟩ := inv
    simp only [kickStep] at taken
    split at taken <;> cases taken
    exact ⟨⟨numbered.returned, numbered.threads⟩, by grind, by grind, stores⟩
  | cpuExit =>
    cases taken
    exact ⟨⟨inv.numbered.returned, inv.numbered.threads⟩, inv.live, inv.items, inv.stores⟩
  | thread id =>
    cases taken
    exact threadStep_kickInv inv kept

/-- In a run whose steps all keep the kick, no completed item waits for a vCPU that
nothing makes leave the guest. -/
theorem no_kick_lost_of_kept :
    ∀ s, kickSystem.ReachedBy KickKept s → ¬LostKick s := by
  rintro s reached ⟨inRun, ⟨item, member, returned⟩, notPending, notExiting⟩
  have inv : KickInv s := by
    refine LabelledSystem.ReachedBy.invariant KickInv ?_ ?_ reached
    · rintro s rfl
      exact kickInv_init
    · intro s label t inv kept taken
      exact kickStep_kickInv inv kept taken
  have towards : s.pc.TowardsRun := by rw [inRun]; trivial
  rcases (inv.items towards item member returned).2 with pending | exiting
  · rw [notPending] at pending
    cases pending
  · rw [notExiting] at exiting
    cases exiting

/-- A thread queues an item and sends `SIG_IPI`; the vCPU enters `GZVM_RUN` with the
signal pending. -/
theorem no_kick_lost_of_kept_pending :
    ∃ s, s.pc = .run ∧ s.workList = [0] ∧ s.returned = [0] ∧ ¬LostKick s := by
  have start : kickSystem.ReachedBy KickKept {} := .start rfl
  -- append, test, store and send
  have appended := start.step (KickStep.thread 0) (by intro _ _; nofun) rfl
  have tested := appended.step (KickStep.thread 0) (by intro _ _; nofun) rfl
  have stored := tested.step (KickStep.thread 0) (by intro _ _; nofun) rfl
  have sent := stored.step (KickStep.thread 0) (by intro _; nofun) rfl
  -- the store at the top of `gzvm_cpu_exec`, the unlock and the test of `exit_request`
  have cleared := sent.step (KickStep.vcpu false) (by intro _; nofun) rfl
  have unlocked := cleared.step (KickStep.vcpu false) (by nofun) rfl
  have entered := unlocked.step (KickStep.vcpu false) (by nofun) rfl
  exact ⟨_, rfl, rfl, rfl, no_kick_lost_of_kept _ entered⟩

/-- A thread queues an item and kicks; the handler sets `immediate_exit` before the
store at the top of `gzvm_cpu_exec`, which forgets it. The vCPU is in the guest with
the item on its list, and `thread_kicked` keeps any further kick from being sent. -/
theorem kick_lost_before_immediate_exit_store :
    ∃ s, kickSystem.ReachedBy (fun _ _ => True) s ∧ LostKick s ∧ s.threadKicked = true := by
  have start : kickSystem.ReachedBy (fun _ _ => True) {} := .start rfl
  have reached := start.run [.thread 0, .thread 0, .thread 0, .thread 0, .signalHandler,
    .vcpu false, .vcpu false, .vcpu false] rfl
  exact ⟨_, reached, ⟨rfl, ⟨0, List.mem_singleton.mpr rfl, List.mem_singleton.mpr rfl⟩, rfl, rfl⟩, rfl⟩

end QemuGzvm.Gzvm
