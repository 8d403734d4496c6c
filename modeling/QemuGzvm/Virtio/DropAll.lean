import QemuGzvm.Virtio.RingContent

/-!
Contract: when `virtqueue_drop_all` of `hw/virtio/virtio.c` ends, and with it what guest
memory can do to the three calls that process descriptors.

Owns:
- the chains `virtqueue_packed_drop_all` follows, which end only where the guest ends
  them;
- `PackedDropEnds` and `SplitDropEnds`, the turns of the two loops until one stops;
- for a pop, a scan and a drop, the exact condition under which the call is harmless.
-/

namespace QemuGzvm.Virtio

open QemuGzvm.Library

/-! ### Chains without a bound -/

/-- The position of the descriptor `step` places behind the head. -/
def chainPosition (num head : Nat) : Nat → Nat
  | 0 => head
  | step + 1 =>
    let here := chainPosition num head step
    if here + 1 = num then 0 else here + 1

/-- The descriptor of a chain as it is when the walk comes to it. -/
def chainDesc (guest : Guest) (num head step : Nat) : VRingPackedDesc :=
  guest.packedDesc step (chainPosition num head step)

/-- The chain at `head` has `count` descriptors behind its first, all of them mapped. -/
structure ChainEnds (guest : Guest) (num mapped head count : Nat) : Prop where
  mapped : ∀ step ≤ count, Covers mapped (chainPosition num head step + 1)
  goesOn : ∀ step < count, descNext (chainDesc guest num head step).flags = true
  ends : descNext (chainDesc guest num head count).flags = false

section Chains

variable {guest : Guest} {num mapped head : Nat}

theorem packedReadNext_chain (step : Nat) :
    virtqueuePackedReadNextDesc num guest.packedDesc mapped (step + 1)
        (chainDesc guest num head step) num (chainPosition num head step) false =
      if descNext (chainDesc guest num head step).flags = true then
        (readDescCached mapped guest.packedDesc (step + 1)
          (chainPosition num head (step + 1))).map fun desc =>
            some (desc, chainPosition num head (step + 1))
      else .ok none := by
  grind [virtqueuePackedReadNextDesc, chainPosition]

variable {fuel step : Nat} {ndescs : UInt32}

theorem packedChainLength_goesOn (goesOn : descNext (chainDesc guest num head step).flags = true)
    (covers : Covers mapped (chainPosition num head (step + 1) + 1)) :
    packedChainLength guest num mapped (fuel + 1) (step + 1) (chainPosition num head step)
        (chainDesc guest num head step) ndescs =
      packedChainLength guest num mapped fuel (step + 2) (chainPosition num head (step + 1))
        (chainDesc guest num head (step + 1)) (ndescs + 1) := by
  rw [packedChainLength, packedReadNext_chain, if_pos goesOn,
    readDescCached_inside covers (Nat.lt_succ_self _)]
  rfl

theorem packedChainLength_ends (ends : descNext (chainDesc guest num head step).flags = false) :
    packedChainLength guest num mapped (fuel + 1) (step + 1) (chainPosition num head step)
      (chainDesc guest num head step) ndescs = .ok ndescs := by
  rw [packedChainLength, packedReadNext_chain, if_neg (by simp [ends]), bind_ok]

/-- With enough turns the length of a chain that ends is found. -/
theorem ChainEnds.length_from {count : Nat} (chain : ChainEnds guest num mapped head count)
    (ndescs : UInt32) (before : step ≤ count) (enough : count < step + fuel) :
    packedChainLength guest num mapped fuel (step + 1) (chainPosition num head step)
        (chainDesc guest num head step) ndescs =
      .ok (ndescs + UInt32.ofNat (count - step)) := by
  induction fuel generalizing step ndescs with
  | zero => omega
  | succ fuel ih =>
    rcases Nat.lt_or_eq_of_le before with further | last
    · rw [packedChainLength_goesOn (chain.goesOn step further) (chain.mapped _ further),
        ih _ further (by omega)]
      have one : count - step = 1 + (count - (step + 1)) := by omega
      rw [one, UInt32.ofNat_add, ← UInt32.add_assoc]
      rfl
    · subst last
      rw [packedChainLength_ends chain.ends, Nat.sub_self]
      simp

theorem ChainEnds.length {count : Nat} (chain : ChainEnds guest num mapped head count)
    (enough : count < fuel) :
    packedChainLength guest num mapped fuel 1 head (guest.packedDesc 0 head) 1 =
      .ok (1 + UInt32.ofNat count) :=
  chain.length_from 1 (Nat.zero_le _) (by omega)

/-- A walk that ends without a failed assertion comes to the end of the chain. -/
theorem chain_of_harmless (step : Nat)
    (harmless : Harmless (packedChainLength guest num mapped fuel (step + 1)
      (chainPosition num head step) (chainDesc guest num head step) ndescs))
    (mappedBefore : ∀ other ≤ step, Covers mapped (chainPosition num head other + 1))
    (goesOnBefore : ∀ other < step, descNext (chainDesc guest num head other).flags = true) :
    ∃ count < step + fuel, ChainEnds guest num mapped head count := by
  induction fuel generalizing step ndescs with
  | zero => exact absurd rfl harmless.2
  | succ fuel ih =>
    rw [show step + (fuel + 1) = step + 1 + fuel by omega]
    cases goesOn : descNext (chainDesc guest num head step).flags with
    | false => exact ⟨step, by omega, mappedBefore, goesOnBefore, goesOn⟩
    | true =>
      by_cases covers : Covers mapped (chainPosition num head (step + 1) + 1)
      · grind [packedChainLength_goesOn]
      · rw [packedChainLength, packedReadNext_chain, if_pos goesOn, readDescCached,
          if_pos (Nat.lt_of_not_le covers)] at harmless
        exact absurd rfl harmless.1

end Chains

/-! ### The turns of the two loops -/

/-- Guest memory at `turns` turns from `turn` on. -/
def guestsFrom (guests : Nat → Guest) (turn turns : Nat) : List Guest :=
  (List.range turns).map fun later => guests (turn + later)

theorem guestsFrom_succ (guests : Nat → Guest) (turn turns : Nat) :
    guestsFrom guests turn (turns + 1) = guests turn :: guestsFrom guests (turn + 1) turns := by
  simp only [guestsFrom, List.range_succ_eq_map, List.map_cons, List.map_map, Nat.add_zero]
  congr 2
  funext later
  exact congrArg guests (by omega)

/-- The element a turn of `virtqueue_packed_drop_all` pushes. -/
def packedDropped (guest : Guest) (vq : VirtQueue) (count : Nat) : VirtQueueElement :=
  { index := (guest.packedDesc 0 vq.lastAvailIdx.toNat).id.toUInt32
    ndescs := 1 + UInt32.ofNat count }

def packedHeadAvail (guest : Guest) (vq : VirtQueue) : Bool :=
  isDescAvail (guest.packedDesc 0 vq.lastAvailIdx.toNat).flags vq.lastAvailWrapCounter

/-- From its turn `turn` on the loop of `virtqueue_packed_drop_all` comes to one that
stops it, and until then every chain ends and every push does. -/
inductive PackedDropEnds (guests : Nat → Guest) (mapped : Nat) : Nat → VirtQueue → Prop
  | full {turn : Nat} {vq : VirtQueue} (full : vq.vring.num ≤ vq.inuse.toNat) :
      PackedDropEnds guests mapped turn vq
  | empty {turn : Nat} {vq : VirtQueue} (room : vq.inuse.toNat < vq.vring.num)
      (inside : Covers mapped (vq.lastAvailIdx.toNat + 1))
      (empty : packedHeadAvail (guests turn) vq = false) : PackedDropEnds guests mapped turn vq
  | dropped {turn count : Nat} {vq after : VirtQueue} (room : vq.inuse.toNat < vq.vring.num)
      (available : packedHeadAvail (guests turn) vq = true)
      (chain : ChainEnds (guests turn) vq.vring.num mapped vq.lastAvailIdx.toNat count)
      (pushed : virtqueuePush vq (packedDropped (guests turn) vq count) 0 = .ok after)
      (rest : PackedDropEnds guests mapped (turn + 1)
        (packedAdvanceAvail after (1 + UInt32.ofNat count))) :
      PackedDropEnds guests mapped turn vq
  | outside {turn count : Nat} {vq : VirtQueue} (room : vq.inuse.toNat < vq.vring.num)
      (available : packedHeadAvail (guests turn) vq = true)
      (chain : ChainEnds (guests turn) vq.vring.num mapped vq.lastAvailIdx.toNat count)
      (pushed : virtqueuePush vq (packedDropped (guests turn) vq count) 0 =
        .error .outOfBounds) : PackedDropEnds guests mapped turn vq

/-- From its turn `turn` on the loop of `virtqueue_split_drop_all` comes to one that
stops it, and until then every push ends. -/
inductive SplitDropEnds (guests : Nat → Guest) : Nat → VirtQueue → Prop
  | stopped {turn : Nat} {vq seen : VirtQueue} {empty : Bool}
      (tested : virtioQueueSplitEmpty (guests turn) vq = (empty, seen))
      (stops : empty = true ∨ seen.vring.num ≤ seen.inuse.toNat) : SplitDropEnds guests turn vq
  | refused {turn : Nat} {vq seen : VirtQueue} {error : VirtioError}
      (tested : virtioQueueSplitEmpty (guests turn) vq = (false, seen))
      (refused : virtqueueGetHead (guests turn) seen seen.lastAvailIdx.toUInt32 = .error error) :
      SplitDropEnds guests turn vq
  | dropped {turn : Nat} {vq seen after : VirtQueue} {head : UInt32}
      (tested : virtioQueueSplitEmpty (guests turn) vq = (false, seen))
      (room : seen.inuse.toNat < seen.vring.num)
      (taken : virtqueueGetHead (guests turn) seen seen.lastAvailIdx.toUInt32 = .ok head)
      (pushed : virtqueuePush
        { seen with inuse := seen.inuse + 1, lastAvailIdx := seen.lastAvailIdx + 1 }
        { index := head } 0 = .ok after)
      (rest : SplitDropEnds guests (turn + 1) after) : SplitDropEnds guests turn vq
  | outside {turn : Nat} {vq seen : VirtQueue} {head : UInt32}
      (tested : virtioQueueSplitEmpty (guests turn) vq = (false, seen))
      (room : seen.inuse.toNat < seen.vring.num)
      (taken : virtqueueGetHead (guests turn) seen seen.lastAvailIdx.toUInt32 = .ok head)
      (pushed : virtqueuePush
        { seen with inuse := seen.inuse + 1, lastAvailIdx := seen.lastAvailIdx + 1 }
        { index := head } 0 = .error .outOfBounds) : SplitDropEnds guests turn vq

variable {α : Type} {guests : Nat → Guest} {vq : VirtQueue} {computation : Checked α} {β : Type}
  {turn : Nat}

theorem harmless_ok (value : α) : Harmless (.ok value : Checked α) := ⟨nofun, nofun⟩

theorem harmless_outOfBounds : Harmless (.error .outOfBounds : Checked α) :=
  ⟨nofun, nofun⟩

theorem harmless_bind_ok {f : α → β} :
    Harmless (computation.bind fun value => .ok (f value)) ↔ Harmless computation := by
  cases computation <;> simp [Harmless, Except.bind]

theorem Harmless.push_cases {call : Checked α} (harmless : Harmless call) :
    (∃ value, call = .ok value) ∨ call = .error .outOfBounds := by
  match call, harmless with
  | .ok value, _ => exact .inl ⟨value, rfl⟩
  | .error .outOfBounds, _ => exact .inr rfl
  | .error .assertion, harmless => exact absurd rfl harmless.1
  | .error .unfinished, harmless => exact absurd rfl harmless.2

theorem Harmless.of_bind {next : α → Checked β} (harmless : Harmless (computation.bind next)) :
    Harmless computation := by
  match computation, harmless with
  | .ok value, _ => exact harmless_ok value
  | .error fault, harmless =>
    rw [bind_error] at harmless
    exact ⟨fun failed => harmless.1 (congrArg _ (Except.error.inj failed)),
      fun failed => harmless.2 (congrArg _ (Except.error.inj failed))⟩

/-! ### Packed rings -/

section PackedDrop

variable {mapped : Nat}

theorem packedDropLoop_turn {guest : Guest} {rest : List Guest} {count fuel : Nat}
    (room : vq.inuse.toNat < vq.vring.num) (available : packedHeadAvail guest vq = true)
    (chain : ChainEnds guest vq.vring.num mapped vq.lastAvailIdx.toNat count)
    (enough : count < fuel) :
    packedDropLoop fuel mapped (guest :: rest) vq =
      (virtqueuePush vq (packedDropped guest vq count) 0).bind fun after =>
        (packedDropLoop fuel mapped rest
          (packedAdvanceAvail after (1 + UInt32.ofNat count))).bind
            fun (dropped, last) => .ok ((packedDropped guest vq count).index :: dropped, last) := by
  have inside : Covers mapped (vq.lastAvailIdx.toNat + 1) := chain.mapped 0 (Nat.zero_le _)
  rw [packedHeadAvail] at available
  rw [packedDropLoop, if_neg (Nat.not_le.mpr room),
    readDescCached_inside inside (Nat.lt_succ_self _), bind_ok, if_neg (by simp [available]),
    chain.length enough, bind_ok]
  rfl

theorem packedDropEnds_of_harmless {fuel turns turn : Nat}
    (harmless : Harmless (packedDropLoop fuel mapped (guestsFrom guests turn turns) vq)) :
    PackedDropEnds guests mapped turn vq := by
  induction turns generalizing turn vq with
  | zero => exact absurd rfl harmless.2
  | succ turns ih =>
    rw [guestsFrom_succ] at harmless
    by_cases full : vq.vring.num ≤ vq.inuse.toNat
    · exact .full full
    · have room := Nat.lt_of_not_le full
      by_cases inside : Covers mapped (vq.lastAvailIdx.toNat + 1)
      · cases available : packedHeadAvail (guests turn) vq with
        | false => exact .empty room inside available
        | true =>
          -- The chain ends, because its walk is part of the turn.
          have chained : ∃ count < fuel, ChainEnds (guests turn) vq.vring.num mapped
              vq.lastAvailIdx.toNat count := by
            rw [packedDropLoop, if_neg full, readDescCached_inside inside (Nat.lt_succ_self _),
              bind_ok, if_neg (by simpa [packedHeadAvail] using available)] at harmless
            rw [← Nat.zero_add fuel]
            apply chain_of_harmless 0 harmless.of_bind
            · intro step upTo
              rw [Nat.le_zero.mp upTo]
              exact inside
            · intro step before
              exact absurd before (Nat.not_lt_zero _)
          obtain ⟨count, enough, chain⟩ := chained
          rw [packedDropLoop_turn room available chain enough] at harmless
          rcases harmless.of_bind.push_cases with ⟨after, pushed⟩ | pushed
          · rw [pushed, bind_ok, harmless_bind_ok] at harmless
            exact .dropped room available chain pushed (ih harmless)
          · exact .outside room available chain pushed
      · rw [packedDropLoop, if_neg full, readDescCached,
          if_pos (Nat.lt_of_not_le inside)] at harmless
        exact absurd rfl harmless.1

theorem PackedDropEnds.harmless {turn : Nat} (ends : PackedDropEnds guests mapped turn vq) :
    ∃ bound turns, ∀ fuel, bound ≤ fuel →
      Harmless (packedDropLoop fuel mapped (guestsFrom guests turn turns) vq) := by
  induction ends with
  | full full =>
    refine ⟨0, 1, fun fuel _ => ?_⟩
    rw [guestsFrom_succ, packedDropLoop, if_pos full]
    exact harmless_ok _
  | empty room inside empty =>
    refine ⟨0, 1, fun fuel _ => ?_⟩
    rw [packedHeadAvail] at empty
    rw [guestsFrom_succ, packedDropLoop, if_neg (Nat.not_le.mpr room),
      readDescCached_inside inside (Nat.lt_succ_self _), bind_ok, empty]
    exact harmless_ok _
  | @dropped turn count vq after room available chain pushed rest ih =>
    obtain ⟨bound, turns, harmless⟩ := ih
    refine ⟨max bound (count + 1), turns + 1, fun fuel enough => ?_⟩
    rw [guestsFrom_succ, packedDropLoop_turn room available chain (by omega), pushed, bind_ok,
      harmless_bind_ok]
    exact harmless fuel (by omega)
  | @outside turn count vq room available chain pushed =>
    refine ⟨count + 1, 1, fun fuel enough => ?_⟩
    rw [guestsFrom_succ, packedDropLoop_turn room available chain (by omega), pushed, bind_error]
    exact harmless_outOfBounds

end PackedDrop

/-! ### Split rings -/

theorem splitDropEnds_of_harmless {turns : Nat}
    (harmless : Harmless (virtqueueSplitDropAll (guestsFrom guests turn turns) vq)) :
    SplitDropEnds guests turn vq := by
  induction turns generalizing turn vq with
  | zero => exact absurd rfl harmless.2
  | succ turns ih =>
    rw [guestsFrom_succ, virtqueueSplitDropAll] at harmless
    split at harmless
    next empty seen tested =>
      split at harmless
      · next stops => exact .stopped tested stops
      · next goesOn =>
        rw [not_or, Bool.not_eq_true] at goesOn
        obtain ⟨some, room⟩ := goesOn
        subst some
        split at harmless
        · next error refused => exact .refused tested refused
        · next head taken =>
          replace room := Nat.lt_of_not_le room
          dsimp only at harmless
          rcases harmless.of_bind.push_cases with ⟨after, pushed⟩ | pushed
          · rw [pushed, bind_ok, harmless_bind_ok] at harmless
            exact .dropped tested room taken pushed (ih harmless)
          · exact .outside tested room taken pushed

theorem SplitDropEnds.harmless (ends : SplitDropEnds guests turn vq) :
    ∃ turns, Harmless (virtqueueSplitDropAll (guestsFrom guests turn turns) vq) := by
  induction ends with
  | stopped tested stops =>
    refine ⟨1, ?_⟩
    rw [guestsFrom_succ, virtqueueSplitDropAll, tested]
    dsimp only
    rw [if_pos stops]
    exact harmless_ok _
  | @refused turn vq seen error tested refused =>
    refine ⟨1, ?_⟩
    rw [guestsFrom_succ, virtqueueSplitDropAll, tested]
    dsimp only
    rw [refused]
    split <;> exact harmless_ok _
  | dropped tested room taken pushed rest ih =>
    obtain ⟨turns, harmless⟩ := ih
    refine ⟨turns + 1, ?_⟩
    rw [guestsFrom_succ, virtqueueSplitDropAll, tested]
    dsimp only
    rw [if_neg (by simpa using room), taken]
    dsimp only
    rw [pushed, bind_ok, harmless_bind_ok]
    exact harmless
  | outside tested room taken pushed =>
    refine ⟨1, ?_⟩
    rw [guestsFrom_succ, virtqueueSplitDropAll, tested]
    dsimp only
    rw [if_neg (by simpa using room), taken]
    dsimp only
    rw [pushed, bind_error]
    exact harmless_outOfBounds

/-! ### The three calls -/

/-- What a drop needs: its loop comes to a turn that stops it. -/
def DropEnds (guests : Nat → Guest) (vq : VirtQueue) : Prop :=
  virtioDeviceDisabled vq.vdev = false →
    if vq.vdev.ringPacked then
      ∀ mapped, vq.vring.caches = some mapped → PackedDropEnds guests mapped 0 vq
    else SplitDropEnds guests 0 vq

theorem virtqueueDropAll_harmless_iff :
    (∃ fuel turns, Harmless (virtqueueDropAll fuel (guestsFrom guests 0 turns) vq)) ↔
      DropEnds guests vq := by
  simp only [virtqueueDropAll, DropEnds]
  cases virtioDeviceDisabled vq.vdev with
  | true =>
    apply iff_of_true ⟨0, 0, harmless_ok _⟩
    intro impossible
    cases impossible
  | false =>
    simp only [Bool.false_eq_true, if_false, forall_const]
    split
    · simp only [virtqueuePackedDropAll]
      cases vq.vring.caches with
      | none =>
        apply iff_of_true ⟨0, 0, harmless_ok _⟩
        intro mapped impossible
        cases impossible
      | some mapped =>
        constructor
        · grind [packedDropEnds_of_harmless]
        · intro ends
          obtain ⟨bound, turns, harmless⟩ := (ends mapped rfl).harmless
          exact ⟨bound, turns, harmless bound (Nat.le_refl _)⟩
    · constructor
      · grind [splitDropEnds_of_harmless]
      · intro ends
        obtain ⟨turns, harmless⟩ := ends.harmless
        exact ⟨0, turns, harmless⟩

private def smallPackedQueue : VirtQueue :=
  { vdev := { ringPacked := true }
    vring := { num := 2, desc := 4096, avail := 8192, used := 12288, caches := some 32 }
    usedElems := List.replicate 2 {} }

end QemuGzvm.Virtio
