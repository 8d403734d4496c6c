import QemuGzvm.Net.Queue
import Mathlib.Data.List.Nodup
import Mathlib.Data.List.Perm.Basic

/-!
Contract: what holds of a net queue in every run that keeps to the rule.

Owns:
- the invariant: what was queued and not purged stands in one line, the accepted packets first,
  then the one in `deliver`, then the queue; and a purge in progress goes on with a packet that is
  on the queue, or that a call inside it has in `deliver`;
- a lemma for each change to the queue, and the two loops;
- the run that breaks a purge, and the theorem about runs that do not.
-/

namespace QemuGzvm.Net

open QemuGzvm.Library

variable {S : Type}

/-! ### Purges in progress -/

/-- Each purge goes on with a live packet: one of `live`, or one that a call inside it has in
`deliver`. -/
def CursorsIn : List (NetPacket S) → List (QueueFrame S) → Prop
  | _, [] => True
  | live, frame :: below =>
    (∀ packet ∈ frame.cursor, packet ∈ live) ∧ CursorsIn (frame.inFlight ++ live) below

theorem CursorsIn.mono {live live' : List (NetPacket S)} {stack : List (QueueFrame S)}
    (cursors : CursorsIn live stack)
    (kept : ∀ frame ∈ stack, ∀ packet ∈ frame.cursor, packet ∈ live → packet ∈ live') :
    CursorsIn live' stack := by
  induction stack generalizing live live' with
  | nil => trivial
  | cons frame below ih =>
    refine ⟨fun packet isNext => ?_, ih cursors.2 ?_⟩
    · exact kept frame List.mem_cons_self packet isNext (cursors.1 packet isNext)
    · grind

namespace QueueState

/-- The packets that were queued and not purged, in the order they are accepted. -/
def line (s : QueueState S) : List (NetPacket S) := s.accepted ++ s.inFlight ++ s.packets

structure Inv [DecidableEq S] (s : QueueState S) : Prop where
  unbroken : s.broken = false
  delivering : s.delivering = s.stack.any QueueFrame.isDeliver
  /-- Only a purge runs inside `deliver`. -/
  nested : s.stack.Pairwise fun inner outer => inner.purges = none → outer.isDeliver = false
  /-- A purge inside another does not purge what that one goes on with. -/
  apart : s.stack.Pairwise fun inner outer =>
    ∀ source ∈ inner.purges, ∀ packet ∈ outer.cursor, packet.sender ≠ source
  cursors : CursorsIn s.packets s.stack
  counted : s.nqCount = s.packets.length
  room : s.packets.length + s.inFlight.length < 2 ^ 32
  refused : s.refusals = s.drops + s.queued.length
  numbered : s.queued.map NetPacket.id = List.range s.queued.length
  fates : ∀ packet, (s.line ++ s.purged).count packet = s.queued.count packet
  ordered : s.line.Pairwise fun a b => a.id < b.id
  calls : ∀ packet, s.calledBack.count packet =
    ((s.accepted ++ s.purged).filter NetPacket.sentCb).count packet
  frees : ∀ packet, (s.freed ++ s.leaving).count packet = (s.accepted ++ s.purged).count packet

variable [DecidableEq S]

theorem inv_start : (start : QueueState S).Inv := by
  constructor <;> simp [start, CursorsIn, inFlight, line, leaving]

variable {s t : QueueState S} {packet : NetPacket S} {stack : List (QueueFrame S)}

/-! ### What the invariant says -/

theorem Inv.queued_nodup (inv : s.Inv) : s.queued.Nodup :=
  List.Nodup.of_map NetPacket.id (inv.numbered ▸ List.nodup_range)

theorem Inv.id_lt (inv : s.Inv) (member : packet ∈ s.queued) : packet.id < s.queued.length := by
  have inIds : packet.id ∈ s.queued.map NetPacket.id := List.mem_map_of_mem member
  rw [inv.numbered] at inIds
  exact List.mem_range.mp inIds

theorem Inv.fates_nodup (inv : s.Inv) : (s.line ++ s.purged).Nodup :=
  (List.perm_iff_count.mpr inv.fates).nodup_iff.mpr inv.queued_nodup

omit [DecidableEq S] in
theorem inFlight_eq_nil {stack : List (QueueFrame S)}
    (idle : stack.any QueueFrame.isDeliver = false) :
    stack.flatMap QueueFrame.inFlight = [] := by
  rw [List.flatMap_eq_nil_iff]
  intro frame member
  rw [List.any_eq_false] at idle
  have notDeliver := idle frame member
  cases frame <;> simp_all [QueueFrame.isDeliver, QueueFrame.inFlight]

/-- Under a call that is not a purge, no `deliver` runs. -/
theorem Inv.idle_below (inv : s.Inv) {frame : QueueFrame S} (isStack : s.stack = frame :: stack)
    (notPurge : frame.purges = none) : stack.any QueueFrame.isDeliver = false := by
  have nested := inv.nested
  rw [isStack, List.pairwise_cons] at nested
  rw [List.any_eq_false]
  intro outer member
  rw [nested.1 outer member notPurge]
  exact Bool.false_ne_true

/-- What was freed, or is in its `sent_cb`, is one of the accepted or purged packets. -/
theorem Inv.left_nodup (inv : s.Inv) : (s.freed ++ s.leaving).Nodup := by
  refine (List.perm_iff_count.mpr inv.frees).nodup_iff.mpr (inv.fates_nodup.sublist ?_)
  unfold line
  rw [List.append_assoc, List.append_assoc]
  exact (List.Sublist.refl _).append
    ((List.sublist_append_right _ _).trans (List.sublist_append_right _ _))

/-- A packet is not freed before it has left the queue and its `sent_cb` has returned. -/
theorem Inv.live (inv : s.Inv) : ∀ packet ∈ s.packets ++ s.inFlight ++ s.leaving,
    packet ∉ s.freed := by
  intro packet member isFreed
  have left : packet ∈ s.accepted ++ s.purged :=
    (List.perm_iff_count.mpr inv.frees).mem_iff.mp (List.mem_append_left _ isFreed)
  have apart := inv.left_nodup
  have nodup := inv.fates_nodup
  simp only [line, List.nodup_append, List.mem_append] at nodup apart left member
  grind

/-! ### Changes to the queue -/

attribute [local simp] line inFlight leaving List.count_cons List.filter_cons

omit [DecidableEq S] in
/-- The calls that are in `deliver` are no purges, and have no packet in its `sent_cb`. -/
theorem isDeliver_apart {frame : QueueFrame S} (isDeliver : frame.isDeliver = true) :
    frame.purges = none ∧ frame.cursor = none ∧ frame.leaving = [] := by
  cases frame with
  | sendDeliver sender sentCb => exact ⟨rfl, rfl, rfl⟩
  | flushDeliver packet => exact ⟨rfl, rfl, rfl⟩
  | flushSent packet => cases isDeliver
  | purgeSent source packet next => cases isDeliver

section

variable (inv : s.Inv) {rest : List (NetPacket S)} {frame : QueueFrame S}
  {next : Option (NetPacket S)} {source : S}
include inv

theorem Inv.append (room : s.HasRoom) (sender : S) (sentCb : Bool) :
    (s.append sender sentCb).Inv := by
  unfold QueueState.append
  split_ifs with full
  · exact { inv with refused := by simp [inv.refused]; omega }
  have room : s.packets.length + s.inFlight.length + 1 < 2 ^ 32 := room
  refine ⟨inv.unbroken, inv.delivering, inv.nested, inv.apart,
    inv.cursors.mono fun _ _ _ _ => List.mem_append_left _, ?_, ?_, ?_, ?_, ?_, ?_,
    inv.calls, inv.frees⟩
  · simp only [List.length_append, List.length_singleton, countUp, inv.counted]
    omega
  · simp only [List.length_append, List.length_singleton]
    change s.packets.length + 1 + s.inFlight.length < 2 ^ 32
    omega
  · simp [inv.refused]
    omega
  · simp [inv.numbered, List.range_succ]
  · intro p
    have same := inv.fates p
    simp at same ⊢
    omega
  · change (s.accepted ++ s.inFlight ++ (s.packets ++ [_])).Pairwise _
    rw [← List.append_assoc, List.pairwise_append]
    refine ⟨inv.ordered, List.pairwise_singleton _ _, fun p member q isNew => ?_⟩
    rw [List.mem_singleton.mp isNew]
    refine inv.id_lt ((List.perm_iff_count.mpr inv.fates).subset (List.mem_append_left _ member))

/-- A call enters `deliver`, with or without the first packet of the queue. -/
theorem Inv.deliver (frame : QueueFrame S) (idle : s.delivering = false)
    (isDeliver : frame.isDeliver = true) (isPackets : s.packets = frame.inFlight ++ rest) :
    { s with
      packets := rest
      nqCount := rest.length
      delivering := true
      stack := frame :: s.stack }.Inv := by
  have none := inv.delivering.symm.trans idle
  have noneInFlight := inFlight_eq_nil none
  have cursors := inv.cursors
  have room := inv.room
  have fates := inv.fates
  have ordered := inv.ordered
  have frees := inv.frees
  have apart := isDeliver_apart isDeliver
  rw [isPackets] at cursors room
  simp only [line, inFlight, noneInFlight, isPackets, List.append_nil] at fates ordered room
  refine ⟨inv.unbroken, by simp [isDeliver], List.pairwise_cons.mpr ⟨fun outer member _ => ?_, inv.nested⟩,
    List.pairwise_cons.mpr ⟨by simp [apart.1], inv.apart⟩, ⟨by simp [apart.2.1], cursors⟩, rfl, ?_,
    inv.refused, inv.numbered, ?_, ?_, inv.calls, ?_⟩
  · rw [List.any_eq_false] at none
    exact Bool.eq_false_iff.mpr (none outer member)
  · simp [noneInFlight] at room ⊢
    omega
  · simpa [noneInFlight] using fates
  · simpa [noneInFlight] using ordered
  · simpa [apart.2.2] using frees

theorem Inv.flushLoop (idle : s.delivering = false) : s.flushLoop.Inv := by
  unfold QueueState.flushLoop
  split
  · exact inv
  · rename_i packet rest isPackets
    have counted := inv.counted
    have room := inv.room
    rw [isPackets, List.length_cons] at counted room
    have isCount : countDown s.nqCount = rest.length := by
      rw [counted]
      unfold countDown
      omega
    unfold QueueState.take
    rw [isCount]
    exact inv.deliver _ idle rfl isPackets

/-- A call leaves `deliver`; its packet, if it has one, comes back to the head of the queue. -/
theorem Inv.undeliver (isStack : s.stack = frame :: stack) (isDeliver : frame.isDeliver = true) :
    { s with
      packets := frame.inFlight ++ s.packets
      nqCount := (frame.inFlight ++ s.packets).length
      delivering := false
      stack := stack }.Inv := by
  have apart := isDeliver_apart isDeliver
  have idle := inv.idle_below isStack apart.1
  have noneInFlight := inFlight_eq_nil idle
  obtain ⟨unbroken, -, nested, apart', cursors, -, room, refused, numbered, fates, ordered, calls,
    frees⟩ := inv
  simp only [line, inFlight, leaving, isStack, List.flatMap_cons, noneInFlight, List.append_nil]
    at room fates ordered frees
  rw [isStack] at nested apart' cursors
  refine ⟨unbroken, idle.symm, nested.tail, apart'.tail, cursors.2, rfl, ?_, refused, numbered,
    ?_, ?_, calls, ?_⟩
  · simp [noneInFlight] at room ⊢
    omega
  · simpa [noneInFlight] using fates
  · simpa [noneInFlight] using ordered
  · simpa [apart.2.2] using frees

theorem Inv.putBack (isStack : s.stack = .flushDeliver packet :: stack) :
    (s.putBack packet stack).Inv := by
  have room := inv.room
  have isCount : countUp s.nqCount = (packet :: s.packets).length := by
    simp only [inFlight, isStack, List.flatMap_cons, QueueFrame.inFlight, List.length_append,
      List.length_singleton] at room
    rw [inv.counted, List.length_cons]
    unfold countUp
    omega
  unfold QueueState.putBack
  rw [isCount]
  exact inv.undeliver isStack rfl

/-- The packet in `deliver` is the last accepted one, and its `sent_cb`, if it has one, is called. -/
theorem Inv.accept (isStack : s.stack = .flushDeliver packet :: stack)
    (notNext : s.NotNext packet) :
    { s.acceptWithCb packet stack with
      calledBack := if packet.sentCb then packet :: s.calledBack else s.calledBack }.Inv := by
  have idle := inv.idle_below isStack rfl
  have noneInFlight := inFlight_eq_nil idle
  obtain ⟨unbroken, -, nested, apart, cursors, counted, room, refused, numbered, fates, ordered,
    calls, frees⟩ := inv
  unfold NotNext at notNext
  simp only [line, inFlight, leaving, isStack, List.flatMap_cons, noneInFlight, List.append_nil,
    QueueFrame.inFlight, QueueFrame.leaving, List.nil_append] at room fates ordered frees
  rw [isStack] at nested apart cursors notNext
  -- all purges go on with a packet of the queue
  have cursors : CursorsIn s.packets stack := by
    refine cursors.2.mono fun frame member other isNext inLive => ?_
    rcases List.mem_cons.mp inLive with rfl | inPackets
    · exact absurd isNext (notNext frame (List.mem_cons_of_mem _ member))
    · exact inPackets
  refine ⟨unbroken, idle.symm,
    List.pairwise_cons.mpr ⟨(List.pairwise_cons.mp nested).1, nested.tail⟩,
    List.pairwise_cons.mpr ⟨fun _ _ _ isPurge => (nomatch isPurge), apart.tail⟩,
    ⟨fun _ isNext => (nomatch isNext), cursors⟩, counted, ?_, refused, numbered, ?_, ?_,
    fun p => ?_, fun p => ?_⟩
  · simp [QueueState.acceptWithCb, QueueFrame.inFlight, noneInFlight] at room ⊢
    omega
  · simpa [QueueState.acceptWithCb, QueueFrame.inFlight, noneInFlight] using fates
  · simpa [QueueState.acceptWithCb, QueueFrame.inFlight, noneInFlight] using ordered
  · have same := calls p
    cases hasCb : packet.sentCb <;> simp [QueueState.acceptWithCb, hasCb] at same ⊢ <;> omega
  · have same := frees p
    simp [QueueState.acceptWithCb, QueueFrame.leaving] at same ⊢
    omega

theorem Inv.release (isStack : s.stack = frame :: stack) (isLeaving : frame.leaving = [packet]) :
    (s.release packet stack).Inv := by
  have apart : frame.isDeliver = false ∧ frame.inFlight = [] := by
    cases frame with
    | sendDeliver sender sentCb => cases isLeaving
    | flushDeliver packet => cases isLeaving
    | flushSent packet => exact ⟨rfl, rfl⟩
    | purgeSent source packet next => exact ⟨rfl, rfl⟩
  obtain ⟨unbroken, delivering, nested, apart', cursors, counted, room, refused, numbered, fates,
    ordered, calls, frees⟩ := inv
  simp only [line, inFlight, leaving, isStack, List.flatMap_cons, apart, isLeaving,
    List.nil_append, List.any_cons, Bool.false_or] at delivering room fates ordered frees
  rw [isStack] at nested apart' cursors
  refine ⟨unbroken, delivering, nested.tail, apart'.tail, ?_, counted, room, refused, numbered,
    fates, ordered, calls, fun p => ?_⟩
  · have below := cursors.2
    rwa [apart.2, List.nil_append] at below
  · have same := frees p
    simp [QueueState.release] at same ⊢
    omega

/-! ### Purging -/

/-- A purge unlinks a packet that no other purge goes on with, and its `sent_cb`, if it has one, is
called. -/
theorem Inv.purge (member : packet ∈ s.packets)
    (clear : ∀ frame ∈ s.stack, ∀ next ∈ frame.cursor, next.sender ≠ packet.sender)
    (nextQueued : ∀ other ∈ next, other ∈ s.packets.erase packet) :
    { s.purgeWithCb packet.sender packet next with
      calledBack := if packet.sentCb then packet :: s.calledBack else s.calledBack }.Inv := by
  have room : s.packets.length + s.inFlight.length < 2 ^ 32 := inv.room
  have positive := List.length_pos_of_mem member
  have isLength := List.length_erase_of_mem member
  have cursors : CursorsIn (s.packets.erase packet) s.stack := by
    refine inv.cursors.mono fun frame inStack next isNext inPackets => ?_
    have other : next ≠ packet := fun same => clear frame inStack next isNext (same ▸ rfl)
    exact (List.mem_erase_of_ne other).mpr inPackets
  refine ⟨inv.unbroken, inv.delivering,
    List.pairwise_cons.mpr ⟨fun outer _ notPurge => (nomatch notPurge), inv.nested⟩,
    List.pairwise_cons.mpr ⟨fun outer inStack source isSource => ?_, inv.apart⟩,
    ⟨nextQueued, cursors⟩, ?_, ?_, inv.refused, inv.numbered, fun p => ?_,
    inv.ordered.sublist ((List.Sublist.refl _).append List.erase_sublist), fun p => ?_, fun p => ?_⟩
  · cases isSource
    exact clear outer inStack
  · change countDown s.nqCount = (s.packets.erase packet).length
    rw [isLength, inv.counted]
    unfold countDown
    omega
  · change (s.packets.erase packet).length + s.inFlight.length < 2 ^ 32
    omega
  · have same := inv.fates p
    have erased := (List.perm_cons_erase member).count_eq p
    simp [QueueState.purgeWithCb, QueueFrame.inFlight] at same erased ⊢
    omega
  · have same := inv.calls p
    cases hasCb : packet.sentCb <;> simp [QueueState.purgeWithCb, hasCb] at same ⊢ <;> omega
  · have same := inv.frees p
    simp [QueueState.purgeWithCb, QueueFrame.leaving] at same ⊢
    omega

theorem Inv.purgeLoop (clear : ∀ frame ∈ s.stack, ∀ next ∈ frame.cursor, next.sender ≠ source)
    (part : rest.Sublist s.packets) :
    (QueueState.purgeLoop source s rest).Inv := by
  induction rest generalizing s with
  | nil => exact inv
  | cons packet rest ih =>
    have member : packet ∈ s.packets := part.subset List.mem_cons_self
    have kept : rest.Sublist (s.packets.erase packet) := by
      have erased := part.erase packet
      rwa [List.erase_cons_head] at erased
    rw [QueueState.purgeLoop]
    split_ifs with isSource hasCb
    · subst isSource
      have purged := inv.purge member clear fun other isNext =>
        kept.subset (List.mem_of_head? isNext)
      rwa [if_pos hasCb] at purged
    · subst isSource
      have noNext : ∀ other ∈ (none : Option (NetPacket S)), other ∈ s.packets.erase packet := nofun
      have purged := (inv.purge member clear noNext).release rfl rfl
      rw [if_neg hasCb] at purged
      exact ih purged clear kept
    · exact ih inv clear ((List.sublist_cons_self _ _).trans part)

/-- A purge goes on after a `sent_cb`: the packet it saved is still on the queue. -/
theorem Inv.purgeFrom (isStack : s.stack = .purgeSent source packet next :: stack) :
    ((s.release packet stack).purgeFrom source next).Inv := by
  have released := inv.release isStack rfl
  have apart := inv.apart
  have cursors := inv.cursors
  rw [isStack] at apart cursors
  cases next with
  | none => exact released
  | some next =>
    have queued : next ∈ (s.release packet stack).packets := cursors.1 next rfl
    have unfreed := released.live next
      (List.mem_append_left _ (List.mem_append_left _ queued))
    rw [QueueState.purgeFrom, if_neg unfreed]
    refine released.purgeLoop (fun frame member other isNext => ?_) (List.dropWhile_sublist _)
    exact (List.pairwise_cons.mp apart).1 frame member source rfl other isNext

/-! ### Every run -/

theorem inv_next {s' : QueueState S} {step : QueueStep S} (rule : s.Rule step)
    (stepped : s.next step = some s') : s'.Inv := by
  unfold next at stepped
  rw [if_neg (by rw [inv.unbroken]; exact Bool.false_ne_true)] at stepped
  cases step with
  | send sender sentCb canSend =>
    simp only at stepped
    split_ifs at stepped with waits
    · cases stepped
      exact inv.append (rule waits) sender sentCb
    · cases stepped
      have idle : s.delivering = false := Bool.eq_false_iff.mpr fun busy => waits (.inl busy)
      have entered := inv.deliver (.sendDeliver sender sentCb) idle rfl rfl
      rwa [← inv.counted] at entered
  | flush =>
    cases stepped
    split_ifs with busy
    · exact inv
    · exact inv.flushLoop (Bool.eq_false_iff.mpr busy)
  | purge source =>
    cases stepped
    exact inv.purgeLoop rule (List.Sublist.refl _)
  | delivered ret =>
    simp only [delivered] at stepped
    split at stepped
    · rename_i sender sentCb stack isStack
      have allowed := rule _ (by rw [isStack]; rfl)
      have popped := inv.undeliver isStack rfl
      change QueueState.Inv { s with nqCount := s.packets.length, delivering := false, stack } at popped
      rw [← inv.counted] at popped
      split_ifs at stepped with zero
      · cases stepped
        refine popped.append ?_ sender sentCb
        have hasRoom := allowed zero
        unfold HasRoom inFlight at hasRoom ⊢
        rwa [isStack] at hasRoom
      · cases stepped
        exact popped.flushLoop rfl
    · rename_i packet stack isStack
      have allowed := rule _ (by rw [isStack]; rfl)
      split_ifs at stepped with cut zero hasCb
      · cases stepped
        exact inv.putBack isStack
      · exact absurd cut (allowed zero).1
      · cases stepped
        have nonzero : ret ≠ 0 := fun zero => cut (by rw [zero]; rfl)
        have accepted := inv.accept isStack (allowed nonzero).2
        rwa [if_pos hasCb] at accepted
      · cases stepped
        have nonzero : ret ≠ 0 := fun zero => cut (by rw [zero]; rfl)
        have accepted := (inv.accept isStack (allowed nonzero).2).release rfl rfl
        rw [if_neg hasCb] at accepted
        exact accepted.flushLoop rfl
    · cases stepped
  | sent =>
    simp only [sent] at stepped
    split at stepped
    · rename_i packet stack isStack
      cases stepped
      have released := inv.release isStack rfl
      exact released.flushLoop (released.delivering.trans (inv.idle_below isStack rfl))
    · rename_i source packet next stack isStack
      cases stepped
      exact inv.purgeFrom isStack
    · cases stepped

end

structure Ok (s : QueueState S) : Prop where
  counted : s.stack = [] → s.nqCount = s.packets.length
  unbroken : s.broken = false
  /-- What is on the queue or in a call's hands is not freed, and nothing is freed twice. -/
  live : ∀ packet ∈ s.packets ++ s.inFlight ++ s.leaving, packet ∉ s.freed
  freedOnce : s.freed.Nodup
  /-- A packet that was not sent was dropped or queued. -/
  refused : s.refusals = s.drops + s.queued.length
  distinct : s.queued.Nodup
  /-- A queued packet is on the queue, in `deliver`, accepted or purged, and only one of them. -/
  fates : (s.packets ++ s.inFlight ++ s.accepted ++ s.purged).Perm s.queued
  /-- The `sent_cb` of a packet was called once if it left the queue, and not before. -/
  calls : s.calledBack.Perm ((s.accepted ++ s.purged).filter NetPacket.sentCb)
  /-- Packets are queued, and accepted, by their numbers. -/
  numbered : s.queued.map NetPacket.id = List.range s.queued.length
  ordered : s.accepted.Pairwise fun a b => a.id < b.id
  first : ∀ a ∈ s.accepted, ∀ b ∈ s.packets ++ s.inFlight, a.id < b.id

theorem Inv.ok (inv : s.Inv) : s.Ok where
  counted := fun _ => inv.counted
  unbroken := inv.unbroken
  live := inv.live
  freedOnce := (List.nodup_append.mp inv.left_nodup).1
  refused := inv.refused
  distinct := inv.queued_nodup
  fates := List.perm_iff_count.mpr fun p => by
    have same := inv.fates p
    simp at same ⊢
    omega
  calls := List.perm_iff_count.mpr inv.calls
  numbered := inv.numbered
  ordered := by
    have ordered := inv.ordered
    unfold line at ordered
    rw [List.append_assoc, List.pairwise_append] at ordered
    exact ordered.1
  first := by
    intro a isAccepted b isQueued
    have ordered := inv.ordered
    unfold line at ordered
    rw [List.append_assoc, List.pairwise_append] at ordered
    refine ordered.2.2 a isAccepted b ?_
    rw [List.mem_append] at isQueued ⊢
    exact isQueued.symm

end QueueState

/-- In every run that keeps to the rule the queue counts its packets, reads none that was freed,
loses, repeats and reorders none, and calls each `sent_cb` once. -/
theorem net_queue_safe [DecidableEq S] {s : QueueState S}
    (reached : (queueSystem S).ReachedBy QueueState.Rule s) : s.Ok := by
  refine (reached.invariant QueueState.Inv ?_ ?_).ok
  · rintro _ rfl
    exact QueueState.inv_start
  · intro s step s' inv rule stepped
    exact QueueState.inv_next inv rule stepped

/-- Two packets are purged; in the first one's `sent_cb` another sender's packet is queued. -/
theorem net_queue_safe_purge :
    ∃ s : QueueState Bool, s.stack = [] ∧ s.purged = [⟨1, true, true⟩, ⟨0, true, true⟩] ∧
      s.packets = [⟨2, false, false⟩] ∧ s.Ok := by
  obtain ⟨s, reached, stack, purged, packets⟩ :
      ∃ s, (queueSystem Bool).ReachedBy QueueState.Rule s ∧ s.stack = [] ∧
        s.purged = [⟨1, true, true⟩, ⟨0, true, true⟩] ∧ s.packets = [⟨2, false, false⟩] :=
    LabelledSystem.exists_reachedBy
      [.send true true false, .send true true false, .purge true, .send false false false, .sent,
        .sent] (by decide +kernel)
  exact ⟨s, stack, purged, packets, net_queue_safe reached⟩

/-- Two packets of one sender are queued and purged. The `sent_cb` of the first sends another one,
as `virtio_net_tx_complete` does; it is delivered, and the flush after it delivers and frees the
second packet, with which the purge then goes on. -/
theorem net_queue_purge_reads_freed :
    ∃ s : QueueState Bool, (queueSystem Bool).ReachedBy (fun _ _ => True) s ∧
      s.broken = true :=
  LabelledSystem.exists_reachedBy
    [.send true true false, .send true false false, .purge true, .send true true true,
      .delivered 60, .delivered 60, .sent] (by decide +kernel)

end QemuGzvm.Net
