import QemuGzvm.Library.Transition
import Mathlib.Algebra.Order.Group.Nat

/-!
Contract: bounce buffers and the clients that wait for them (`address_space_map`,
`address_space_unmap`, `address_space_register_map_client`,
`address_space_unregister_map_client` and `address_space_notify_map_clients` of
`system/physmem.c`), run by any number of threads.

Owns:
- the shared state of an address space and where each thread stands in its call;
- one step per atomic access;
- the accounting of the reserved bytes, and that nobody waits while there is room.

Between two atomic accesses a thread works on its own data or, holding
`map_client_list_lock`, on the client list, which no other thread then touches; such
work belongs to the step of the access before it.
-/

namespace QemuGzvm.Physmem

open QemuGzvm.Library

/-- What the accounting uses of a `BounceBuffer`: the caller's handle and its length. -/
structure BounceBuffer where
  addr : UInt64
  len : UInt64

inductive ThreadState where
  | idle
  /-- In the loop of `address_space_map`, for `l` bytes, having read `used`. -/
  | mapping (addr l used : UInt64)
  /-- In `address_space_unmap`, after the subtraction and before the notification. -/
  | unmapped
  /-- In `address_space_register_map_client`, after the insertion and before the size
  check, with the lock held. -/
  | registered
deriving DecidableEq

/-- The shared part of an `AddressSpace`, and its threads. -/
structure BounceState (Thread Bh : Type) where
  bounceBufferSize : UInt64
  mapClientList : List Bh
  locked : Bool
  /-- The bottom halves scheduled so far. -/
  scheduled : List Bh
  /-- The buffers reserved and not released. -/
  buffers : List BounceBuffer
  threads : Thread → ThreadState

structure BounceConfig where
  maxBounceBufferSize : UInt64

inductive BounceOp (Thread Bh : Type) where
  | mapLoad (thread : Thread) (addr l : UInt64)
  | mapCmpxchg (thread : Thread)
  | unmapSub (thread : Thread) (place : Nat)
  | unmapNotify (thread : Thread)
  | registerInsert (thread : Thread) (bh : Bh)
  | registerCheck (thread : Thread)
  | unregister (thread : Thread) (bh : Bh)

section

variable {Thread Bh : Type} [DecidableEq Thread] {max : UInt64} {state : ThreadState}
  {threads : Thread → ThreadState}

def BounceState.at (s : BounceState Thread Bh) (thread : Thread) (state : ThreadState) :
    BounceState Thread Bh :=
  { s with threads := Function.update s.threads thread state }

/-- Schedules and removes the first client until there is none. -/
def notifyMapClientsLoop : List Bh → List Bh → List Bh
  | [], scheduled => scheduled
  | client :: rest, scheduled => notifyMapClientsLoop rest (scheduled ++ [client])

def addressSpaceNotifyMapClientsLocked (s : BounceState Thread Bh) : BounceState Thread Bh :=
  { s with
    scheduled := notifyMapClientsLoop s.mapClientList s.scheduled
    mapClientList := [] }

def mapLoad (s : BounceState Thread Bh) (thread : Thread) (addr l : UInt64) :
    Option (BounceState Thread Bh) :=
  if s.threads thread = .idle then some (s.at thread (.mapping addr l s.bounceBufferSize))
  else none

/-- One turn of the loop of `address_space_map`, and on success what follows it. -/
def mapCmpxchg (config : BounceConfig) (s : BounceState Thread Bh) (thread : Thread) :
    Option (BounceState Thread Bh) :=
  match s.threads thread with
  | .mapping addr l used =>
    let alloc := min (config.maxBounceBufferSize - used) l
    let newSize := used + alloc
    if s.bounceBufferSize = used then
      let s := { s with bounceBufferSize := newSize }
      if alloc = 0 then some (s.at thread .idle)
      else some ({ s with buffers := ⟨addr, alloc⟩ :: s.buffers }.at thread .idle)
    else some (s.at thread (.mapping addr l s.bounceBufferSize))
  | _ => none

/-- `address_space_unmap` of one of the reserved buffers, up to the subtraction and the
release of the buffer. -/
def unmapSub (s : BounceState Thread Bh) (thread : Thread) (place : Nat) :
    Option (BounceState Thread Bh) :=
  if s.threads thread = .idle then
    s.buffers[place]?.map fun bounce =>
      { s with
        bounceBufferSize := s.bounceBufferSize - bounce.len
        buffers := s.buffers.eraseIdx place }.at thread .unmapped
  else none

/-- `address_space_notify_map_clients`, the end of `address_space_unmap`. -/
def unmapNotify (s : BounceState Thread Bh) (thread : Thread) : Option (BounceState Thread Bh) :=
  if s.threads thread = .unmapped ∧ s.locked = false then
    some ((addressSpaceNotifyMapClientsLocked s).at thread .idle)
  else none

/-- `address_space_register_map_client` up to the barrier. -/
def registerInsert (s : BounceState Thread Bh) (thread : Thread) (bh : Bh) :
    Option (BounceState Thread Bh) :=
  if s.threads thread = .idle ∧ s.locked = false then
    some ({ s with locked := true, mapClientList := bh :: s.mapClientList }.at thread .registered)
  else none

/-- The rest of `address_space_register_map_client`. -/
def registerCheck (config : BounceConfig) (s : BounceState Thread Bh) (thread : Thread) :
    Option (BounceState Thread Bh) :=
  if s.threads thread = .registered then
    let s :=
      if s.bounceBufferSize < config.maxBounceBufferSize then addressSpaceNotifyMapClientsLocked s
      else s
    some ({ s with locked := false }.at thread .idle)
  else none

def addressSpaceUnregisterMapClient [DecidableEq Bh] (s : BounceState Thread Bh)
    (thread : Thread) (bh : Bh) : Option (BounceState Thread Bh) :=
  if s.threads thread = .idle ∧ s.locked = false then
    some { s with mapClientList := s.mapClientList.erase bh }
  else none

def BounceConfig.next [DecidableEq Bh] (config : BounceConfig) (s : BounceState Thread Bh) :
    BounceOp Thread Bh → Option (BounceState Thread Bh)
  | .mapLoad thread addr l => mapLoad s thread addr l
  | .mapCmpxchg thread => mapCmpxchg config s thread
  | .unmapSub thread place => unmapSub s thread place
  | .unmapNotify thread => unmapNotify s thread
  | .registerInsert thread bh => registerInsert s thread bh
  | .registerCheck thread => registerCheck config s thread
  | .unregister thread bh => addressSpaceUnregisterMapClient s thread bh

def BounceState.start : BounceState Thread Bh :=
  ⟨0, [], false, [], [], fun _ => .idle⟩

def BounceConfig.system [DecidableEq Bh] (config : BounceConfig) :
    LabelledSystem (BounceState Thread Bh) (BounceOp Thread Bh) :=
  .ofNext .start config.next

def reservedBytes (buffers : List BounceBuffer) : Nat :=
  (buffers.map (·.len.toNat)).sum

/-- A thread that will still look after the clients that wait. -/
def ThreadState.WillNotify (state : ThreadState) : Prop :=
  state = .registered ∨ state = .unmapped

/-! ### The list of clients and of buffers -/

theorem notifyMapClientsLoop_eq (clients scheduled : List Bh) :
    notifyMapClientsLoop clients scheduled = scheduled ++ clients := by
  induction clients generalizing scheduled with
  | nil => exact (List.append_nil scheduled).symm
  | cons client rest ih => simp [notifyMapClientsLoop, ih]

theorem reservedBytes_eraseIdx {buffers : List BounceBuffer} {place : Nat} {bounce : BounceBuffer}
    (found : buffers[place]? = some bounce) :
    reservedBytes (buffers.eraseIdx place) + bounce.len.toNat = reservedBytes buffers := by
  induction buffers generalizing place with
  | nil => cases found
  | cons head rest ih =>
    cases place with
    | zero =>
      cases found
      simp [reservedBytes, Nat.add_comm]
    | succ place =>
      grind [reservedBytes]

/-- What a turn of the loop would reserve fits, even if the size it read is outdated. -/
theorem alloc_fits {used l : UInt64} (within : used ≤ max) :
    (used + min (max - used) l).toNat = used.toNat + (min (max - used) l).toNat ∧
      used + min (max - used) l ≤ max := by
  have room : (max - used).toNat = max.toNat - used.toNat := UInt64.toNat_sub_of_le _ _ within
  have short : (min (max - used) l).toNat ≤ max.toNat - used.toNat := by
    rw [← room, ← UInt64.le_iff_toNat_le]
    exact Std.min_le_left
  have fits := max.toNat_lt
  rw [UInt64.le_iff_toNat_le] at within ⊢
  have sum : (used + min (max - used) l).toNat = used.toNat + (min (max - used) l).toNat := by
    rw [UInt64.toNat_add]
    exact Nat.mod_eq_of_lt (by omega)
  exact ⟨sum, by omega⟩

/-! ### The invariant -/

/-- What the mapping threads have read of the size is at most `max`. -/
def ReadWithin (max : UInt64) (threads : Thread → ThreadState) : Prop :=
  ∀ thread addr l used, threads thread = .mapping addr l used → used ≤ max

/-- The size counts the reserved bytes and stays within the maximum, as does every copy
of it a thread has read; whoever waits will be notified or there is no room. -/
structure BounceInv (config : BounceConfig) (s : BounceState Thread Bh) : Prop where
  accounted : s.bounceBufferSize.toNat = reservedBytes s.buffers
  bounded : s.bounceBufferSize ≤ config.maxBounceBufferSize
  read : ReadWithin config.maxBounceBufferSize s.threads
  watched : s.mapClientList ≠ [] →
    (∃ thread, (s.threads thread).WillNotify) ∨ config.maxBounceBufferSize ≤ s.bounceBufferSize

variable {config : BounceConfig} {s after : BounceState Thread Bh} {thread : Thread}

theorem ReadWithin.update (read : ReadWithin max threads)
    (new : ∀ addr l used, state = .mapping addr l used → used ≤ max) (thread : Thread) :
    ReadWithin max (Function.update threads thread state) := by
  intro other addr l used found
  by_cases same : other = thread
  · subst same
    rw [Function.update_self] at found
    exact new _ _ _ found
  · rw [Function.update_of_ne same] at found
    exact read _ _ _ _ found

/-- A thread that notifies nobody takes no notifier away. -/
theorem willNotify_update {thread : Thread} (silent : ¬ (threads thread).WillNotify)
    (someone : ∃ other, (threads other).WillNotify) :
    ∃ other, (Function.update threads thread state other).WillNotify := by
  obtain ⟨other, will⟩ := someone
  have apart : other ≠ thread := by
    intro same
    subst same
    exact silent will
  refine ⟨other, ?_⟩
  rw [Function.update_of_ne apart]
  exact will

theorem willNotify_update_self {thread : Thread} (will : state.WillNotify) :
    ∃ other, (Function.update threads thread state other).WillNotify := by
  refine ⟨thread, ?_⟩
  rw [Function.update_self]
  exact will

omit [DecidableEq Thread] in
theorem BounceInv.start : BounceInv config (.start : BounceState Thread Bh) where
  accounted := rfl
  bounded := UInt64.le_iff_toNat_le.mpr (Nat.zero_le _)
  read := fun _ _ _ _ found => by cases found
  watched := fun waiting => absurd rfl waiting

section

variable (inv : BounceInv config s) {addr l : UInt64} {bh : Bh}
include inv

/-- A thread reads the size and goes on with it. -/
theorem BounceInv.load (silent : ¬(s.threads thread).WillNotify) :
    BounceInv config (s.at thread (.mapping addr l s.bounceBufferSize)) where
  accounted := inv.accounted
  bounded := inv.bounded
  read := by
    apply inv.read.update
    intro addr l used eq
    cases eq
    exact inv.bounded
  watched := fun waiting => (inv.watched waiting).imp_left (willNotify_update silent)

/-- A thread goes where it maps nothing, and the clients and the lock may change. -/
theorem BounceInv.move {state : ThreadState} {mapClientList scheduled : List Bh} {locked : Bool}
    (unmapping : ∀ addr l used, state ≠ .mapping addr l used)
    (watched : mapClientList ≠ [] →
      state.WillNotify ∨ config.maxBounceBufferSize ≤ s.bounceBufferSize) :
    BounceInv config ({ s with mapClientList, locked, scheduled }.at thread state) where
  accounted := inv.accounted
  bounded := inv.bounded
  read := inv.read.update (fun _ _ _ eq => absurd eq (unmapping _ _ _)) thread
  watched := fun waiting => (watched waiting).imp_left willNotify_update_self

theorem BounceInv.mapLoad (taken : mapLoad s thread addr l = some after) :
    BounceInv config after := by
  obtain ⟨idle, isAfter⟩ := Option.ite_none_right_eq_some.mp taken
  cases isAfter
  exact inv.load (by simp [ThreadState.WillNotify, idle])

/-- A successful exchange: the size a thread read is still the size. -/
theorem BounceInv.reserve {used : UInt64}
    (mapping : s.threads thread = .mapping addr l used) (current : s.bounceBufferSize = used)
    {buffers : List BounceBuffer} (counted : reservedBytes buffers =
      reservedBytes s.buffers + (min (config.maxBounceBufferSize - used) l).toNat) :
    BounceInv config
      (({ s with
          bounceBufferSize := used + min (config.maxBounceBufferSize - used) l
          buffers } : BounceState Thread Bh).at thread .idle) := by
  obtain ⟨sum, fits⟩ := alloc_fits (l := l) (inv.read _ _ _ _ mapping)
  have silent : ¬ (s.threads thread).WillNotify := by simp [ThreadState.WillNotify, mapping]
  exact {
    accounted := by
      show (used + min (config.maxBounceBufferSize - used) l).toNat = reservedBytes buffers
      rw [sum, counted, ← inv.accounted, current]
    bounded := fits
    read := inv.read.update (fun _ _ _ eq => by cases eq) thread
    watched := by
      intro waiting
      apply (inv.watched waiting).imp (willNotify_update silent)
      intro full
      rw [current] at full
      rw [UInt64.le_iff_toNat_le] at full ⊢
      show _ ≤ (used + min (config.maxBounceBufferSize - used) l).toNat
      omega }

theorem BounceInv.mapCmpxchg (taken : mapCmpxchg config s thread = some after) :
    BounceInv config after := by
  rw [Physmem.mapCmpxchg] at taken
  split at taken
  · next addr l used mapping =>
    simp only at taken
    split at taken
    · next current =>
      split at taken
      · next nothing =>
        cases taken
        apply inv.reserve mapping current
        simp [nothing]
      · cases taken
        apply inv.reserve mapping current
        simp [reservedBytes, Nat.add_comm]
    · cases taken
      exact inv.load (by simp [ThreadState.WillNotify, mapping])
  · cases taken

theorem BounceInv.unmapSub {place : Nat} (taken : unmapSub s thread place = some after) :
    BounceInv config after := by
  rw [Physmem.unmapSub] at taken
  split at taken
  · obtain ⟨bounce, found, eq⟩ := Option.map_eq_some_iff.mp taken
    cases eq
    have bytes := reservedBytes_eraseIdx found
    have accounted := inv.accounted
    have bounded := UInt64.le_iff_toNat_le.mp inv.bounded
    have released : (s.bounceBufferSize - bounce.len).toNat =
        s.bounceBufferSize.toNat - bounce.len.toNat := by
      apply UInt64.toNat_sub_of_le
      rw [UInt64.le_iff_toNat_le]
      omega
    exact {
      accounted := by
        show (s.bounceBufferSize - bounce.len).toNat = reservedBytes (s.buffers.eraseIdx place)
        omega
      bounded := by
        rw [UInt64.le_iff_toNat_le]
        show (s.bounceBufferSize - bounce.len).toNat ≤ _
        omega
      read := inv.read.update (fun _ _ _ eq => by cases eq) thread
      watched := fun _ => .inl (willNotify_update_self (.inr rfl)) }
  · cases taken

theorem BounceInv.unmapNotify (taken : unmapNotify s thread = some after) :
    BounceInv config after := by
  obtain ⟨_, isAfter⟩ := Option.ite_none_right_eq_some.mp taken
  cases isAfter
  exact inv.move nofun fun waiting => absurd rfl waiting

theorem BounceInv.registerInsert (taken : registerInsert s thread bh = some after) :
    BounceInv config after := by
  obtain ⟨_, isAfter⟩ := Option.ite_none_right_eq_some.mp taken
  cases isAfter
  exact inv.move nofun fun _ => .inl (.inl rfl)

theorem BounceInv.registerCheck (taken : registerCheck config s thread = some after) :
    BounceInv config after := by
  obtain ⟨_, isAfter⟩ := Option.ite_none_right_eq_some.mp taken
  cases isAfter
  split
  · exact inv.move nofun fun waiting => absurd rfl waiting
  · next full => exact inv.move nofun fun _ => .inr (UInt64.not_lt.mp full)

omit [DecidableEq Thread] in
theorem BounceInv.unregister [DecidableEq Bh]
    (taken : addressSpaceUnregisterMapClient s thread bh = some after) :
    BounceInv config after := by
  obtain ⟨_, isAfter⟩ := Option.ite_none_right_eq_some.mp taken
  cases isAfter
  refine ⟨inv.accounted, inv.bounded, inv.read, ?_⟩
  intro waiting
  apply inv.watched
  intro empty
  apply waiting
  show s.mapClientList.erase bh = []
  rw [empty, List.erase_nil]

theorem BounceInv.next [DecidableEq Bh] {op : BounceOp Thread Bh}
    (taken : config.next s op = some after) : BounceInv config after := by
  cases op with
  | mapLoad => exact inv.mapLoad taken
  | mapCmpxchg => exact inv.mapCmpxchg taken
  | unmapSub => exact inv.unmapSub taken
  | unmapNotify => exact inv.unmapNotify taken
  | registerInsert => exact inv.registerInsert taken
  | registerCheck => exact inv.registerCheck taken
  | unregister => exact inv.unregister taken

end

/-! ### Every interleaving -/

/-- In every state of every interleaving the size counts the reserved bytes and is at
most the maximum; and when clients wait and no thread is between its insertion and its
size check, nor between its subtraction and its notification, the maximum is reached. -/
theorem bounceBuffer_accounting [DecidableEq Bh] (config : BounceConfig)
    (s : BounceState Thread Bh)
    (reached : config.system.ReachedBy (fun _ _ => True) s) :
    s.bounceBufferSize.toNat = (s.buffers.map (·.len.toNat)).sum ∧
      s.bounceBufferSize ≤ config.maxBounceBufferSize ∧
      (s.mapClientList ≠ [] →
        (∀ thread, s.threads thread ≠ .registered ∧ s.threads thread ≠ .unmapped) →
        config.maxBounceBufferSize ≤ s.bounceBufferSize) := by
  have inv : BounceInv config s := by
    apply reached.invariant (BounceInv config)
    · intro start initial
      cases initial
      exact .start
    · intro before op after inv _ taken
      exact inv.next taken
  refine ⟨inv.accounted, inv.bounded, ?_⟩
  intro waiting nobody
  apply (inv.watched waiting).resolve_left
  intro someone
  obtain ⟨thread, will⟩ := someone
  exact will.elim (nobody thread).1 (nobody thread).2

/-- Two threads: one reserves all there is, the other's client waits for it. -/
theorem bounceBuffer_accounting_full :
    ∃ s : BounceState Bool Nat, (BounceConfig.mk 16).system.ReachedBy (fun _ _ => True) s ∧
      s.mapClientList = [7] ∧ s.bounceBufferSize.toNat = (s.buffers.map (·.len.toNat)).sum ∧
      16 ≤ s.bounceBufferSize := by
  obtain ⟨s, reached, waiting, first, second⟩ :
      ∃ s : BounceState Bool Nat, (BounceConfig.mk 16).system.ReachedBy (fun _ _ => True) s ∧
        s.mapClientList = [7] ∧ s.threads true = .idle ∧ s.threads false = .idle :=
    LabelledSystem.exists_reachedBy [.mapLoad true 0x1000 24, .mapCmpxchg true,
      .registerInsert false 7, .registerCheck false] (by decide +kernel)
  obtain ⟨accounted, -, full⟩ := bounceBuffer_accounting ⟨16⟩ s reached
  refine ⟨s, reached, waiting, accounted, full (by simp [waiting]) ?_⟩
  intro thread
  cases thread
  · simp [second]
  · simp [first]

/-- A client leaves the list only when it is scheduled or unregistered. -/
theorem client_kept [DecidableEq Bh] {op : BounceOp Thread Bh} {bh : Bh}
    (taken : config.next s op = some after)
    (stays : ∀ thread, op ≠ .unregister thread bh)
    (known : bh ∈ s.mapClientList ∨ bh ∈ s.scheduled) :
    bh ∈ after.mapClientList ∨ bh ∈ after.scheduled := by
  have notified : bh ∈ notifyMapClientsLoop s.mapClientList s.scheduled := by
    rw [notifyMapClientsLoop_eq, List.mem_append]
    exact known.symm
  cases op <;>
    grind [BounceConfig.next, BounceState.at, mapLoad, mapCmpxchg, unmapSub, unmapNotify,
      registerInsert, registerCheck, addressSpaceUnregisterMapClient,
      addressSpaceNotifyMapClientsLocked]

end

end QemuGzvm.Physmem
