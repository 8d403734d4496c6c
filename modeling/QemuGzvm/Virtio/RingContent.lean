import QemuGzvm.Virtio.AvailBytes
import QemuGzvm.Virtio.Operations

/-!
Contract: what guest memory can do to descriptor processing (`virtqueue_pop` and
`virtqueue_get_avail_bytes` of `hw/virtio/virtio.c`).

Owns:
- that the walks along a chain stay inside their table and their arrays;
- for both calls and layouts, exactly when they end without a failed assertion.

The checks of the split layout suffice. Those of the packed layout let an indirect table
of length 0 through to `address_space_cache_init`.
-/

namespace QemuGzvm.Virtio

open QemuGzvm.Library

/-- The call ends, and no assertion fails on the way. -/
def Harmless {α : Type} (call : Checked α) : Prop :=
  call ≠ .error .assertion ∧ call ≠ .error .unfinished

def EmptyTable (desc : VRingPackedDesc) : Prop :=
  descIndirect desc.flags = true ∧ desc.len = 0

instance (desc : VRingPackedDesc) : Decidable (EmptyTable desc) :=
  inferInstanceAs (Decidable (_ ∧ _))

/-! ### Computations without faults -/

/-- The computation reports an error or gives a value with the property; it does not
fault. -/
def Collects {α : Type} (post : α → Prop) : Except Stop α → Prop
  | .ok value => post value
  | .error (.report _) => True
  | .error (.fault _) => False

section

variable {α β : Type} {post : α → Prop} {next : α → Except Stop β} {after : β → Prop}

variable {computation : Except Stop α}

theorem Collects.bind (first : Collects post computation)
    (second : ∀ value, post value → Collects after (next value)) :
    Collects after (computation.bind next) := by
  match computation, first with
  | .ok value, holds => exact second value holds
  | .error (.report _), _ => trivial

theorem Collects.map {f : α → β} (first : Collects post computation)
    (second : ∀ value, post value → after (f value)) : Collects after (computation.map f) := by
  match computation, first with
  | .ok value, holds => exact second value holds
  | .error (.report _), _ => trivial

theorem Collects.mono {weaker : α → Prop} (collects : Collects post computation)
    (weaken : ∀ value, post value → weaker value) : Collects weaker computation := by
  match computation, collects with
  | .ok value, holds => exact weaken value holds
  | .error (.report _), _ => trivial

end

/-! ### The arrays of a pop -/

def SgLists.Fits (sgs : SgLists) : Prop :=
  sgs.outSg.length + sgs.inSg.length ≤ virtqueueMaxSize

variable {guest : Guest} {room mapped max reads next num totalBufs : Nat} {sgs : SgLists}
  {table : Nat → Nat → VRingDesc} {limits totals : AvailBytes} {indirect : Bool}
  {desc : VRingPackedDesc} {vq : VirtQueue} {isWrite : Bool} {offset i numBufs idx : Nat}
  {pa addr : UInt64} {len head : UInt32} {Desc β : Type}

theorem mapDescPieces_collects {sgs : List Sg} {sz : Nat}
    (fits : offset + sgs.length + room ≤ virtqueueMaxSize) :
    Collects (fun more => offset + more.length ≤ virtqueueMaxSize)
      (mapDescPieces guest isWrite offset room sgs pa sz) := by
  induction room generalizing sgs pa sz with
  | zero =>
    cases sz with
    | zero => exact fits
    | succ sz => trivial
  | succ room ih =>
    cases sz with
    | zero => exact (show offset + sgs.length ≤ virtqueueMaxSize by omega)
    | succ sz =>
      rw [mapDescPieces]
      cases guest.dmaMap sgs.length pa (sz + 1) isWrite with
      | none => trivial
      | some piece =>
        grind

theorem virtqueueMapDesc_collects {sgs : List Sg} {maxNumSg : Nat} {sz : UInt32}
    (known : sgs.length ≤ maxNumSg) (fits : offset + maxNumSg ≤ virtqueueMaxSize) :
    Collects (fun more => offset + more.length ≤ virtqueueMaxSize)
      (virtqueueMapDesc guest sgs offset maxNumSg isWrite pa sz) := by
  rw [virtqueueMapDesc, if_neg (Nat.not_lt.mpr known)]
  split
  · trivial
  · exact mapDescPieces_collects (by omega)

theorem mapChainDesc_collects {flags : UInt16} (fits : sgs.Fits) :
    Collects SgLists.Fits (mapChainDesc guest flags addr len sgs) := by
  unfold SgLists.Fits at fits
  rw [mapChainDesc]
  split
  · apply (virtqueueMapDesc_collects (by omega) (by omega)).map
    intro inSg within
    exact within
  · split
    · trivial
    · next empty =>
      apply (virtqueueMapDesc_collects (by omega) (Nat.le_of_eq (Nat.zero_add _))).map
      intro outSg within
      rw [SgLists.Fits, Decidable.not_not.mp empty]
      rwa [Nat.zero_add] at within

/-! ### Tables -/

/-- A cache that holds `max` descriptors. -/
def Covers (mapped max : Nat) : Prop := max * sizeofDesc ≤ mapped

theorem readDescCached_inside (covers : Covers mapped max) (inside : i < max)
    (table : Nat → Nat → Desc) (reads : Nat) :
    readDescCached mapped table reads i = .ok (table reads i) := by
  rw [readDescCached, if_neg]
  exact Nat.not_lt.mpr (Nat.le_trans (Nat.mul_le_mul_right sizeofDesc inside) covers)

theorem Collects.read {table : Nat → Nat → Desc} {next : Desc → Except Stop β} {after : β → Prop}
    (covers : Covers mapped max) (inside : i < max) (rest : Collects after (next (table reads i))) :
    Collects after (((readDescCached mapped table reads i).mapError .fault).bind next) := by
  rw [readDescCached_inside covers inside]
  exact rest

theorem mapIndirect_empty (guest : Guest) (addr : UInt64) :
    mapIndirect guest addr 0 = .error (.fault .assertion) := rfl

/-- The cache of a mapped table holds its entries, of which there is one at least. -/
theorem mapIndirect_collects (some : len ≠ 0) (whole : len.toNat % sizeofDesc = 0) :
    Collects (fun table => Covers table.1 table.2 ∧ 0 < table.2) (mapIndirect guest addr len) := by
  have nonzero : len.toNat ≠ 0 := fun zero => some (UInt32.toNat_inj.mp zero)
  rw [mapIndirect, addressSpaceCacheInit, if_neg some]
  show Collects _ (if _ then _ else _)
  split
  · trivial
  · show Covers _ _ ∧ 0 < _
    unfold Covers sizeofDesc at *
    omega

/-! ### Walks -/

theorem splitReadNext_collects {desc : VRingDesc} (covers : Covers mapped max) :
    Collects (fun _ => True) (virtqueueSplitReadNextDesc table mapped reads desc max) := by
  rw [virtqueueSplitReadNextDesc]
  split
  · trivial
  · split
    · trivial
    · next inside =>
      rw [readDescCached_inside covers (Nat.lt_of_not_le inside)]
      trivial

theorem splitPopChain_collects {desc : VRingDesc} (covers : Covers mapped max) (fits : sgs.Fits) :
    Collects SgLists.Fits (splitPopChain guest table mapped max room reads desc sgs) := by
  induction room generalizing reads desc sgs with
  | zero =>
    rw [splitPopChain]
    apply (mapChainDesc_collects fits).bind
    intro buffers _
    trivial
  | succ room ih =>
    rw [splitPopChain]
    apply (mapChainDesc_collects fits).bind
    intro buffers within
    apply (splitReadNext_collects covers).bind
    intro following _
    cases following with
    | none => exact within
    | some next => exact ih within

/-- The count went on, but not past `high`. -/
def ChainCount.Within (low high : Nat) : ChainCount → Prop
  | .enough _ => True
  | .ended count _ => low < count ∧ count ≤ high

theorem ChainCount.Within.from_succ {low high : Nat} {count : ChainCount}
    (within : count.Within (low + 1) high) : count.Within low high := by
  cases count with
  | enough totals => trivial
  | ended count totals => exact ⟨Nat.lt_of_succ_lt within.1, within.2⟩

theorem splitCountChain_collects {desc : VRingDesc} (covers : Covers mapped max) :
    Collects (ChainCount.Within numBufs (numBufs + room))
      (splitCountChain table mapped max limits room reads numBufs desc totals) := by
  induction room generalizing reads numBufs desc totals with
  | zero => trivial
  | succ room ih =>
    rw [splitCountChain]
    split
    · trivial
    · apply (splitReadNext_collects covers).bind
      intro following _
      cases following with
      | none => exact ⟨Nat.lt_succ_self _, by omega⟩
      | some next =>
        rw [show numBufs + (room + 1) = numBufs + 1 + room by omega]
        exact ih.mono fun _ => ChainCount.Within.from_succ

/-- The next descriptor of a packed chain is inside the table again. -/
theorem packedReadNext_ok (table : Nat → Nat → VRingPackedDesc) (reads : Nat)
    (desc : VRingPackedDesc) (covers : Covers mapped max) (inside : next < max)
    (ring : indirect = true ∨ max = num) :
    ∃ more, virtqueuePackedReadNextDesc num table mapped reads desc max next indirect = .ok more ∧
      ∀ desc place, more = some (desc, place) → place < max := by
  rw [virtqueuePackedReadNextDesc]
  split
  · exact ⟨none, rfl, nofun⟩
  · split
    · next atEnd =>
      cases indirect with
      | true => exact ⟨none, rfl, nofun⟩
      | false =>
        have wrapped : next + 1 - num < max := by
          have ring := ring.resolve_left Bool.false_ne_true
          omega
        rw [readDescCached_inside covers wrapped]
        refine ⟨_, rfl, ?_⟩
        intro desc place eq
        cases eq
        exact wrapped
    · have further : next + 1 < max := by omega
      rw [readDescCached_inside covers further]
      refine ⟨_, rfl, ?_⟩
      intro desc place eq
      cases eq
      exact further

theorem packedPopChain_collects {table : Nat → Nat → VRingPackedDesc} {entries : Nat}
    (covers : Covers mapped max) (inside : next < max) (ring : indirect = true ∨ max = num)
    (fits : sgs.Fits) :
    Collects (fun result => result.1.Fits)
      (packedPopChain guest num table mapped max indirect room entries reads next desc sgs) := by
  induction room generalizing entries reads next desc sgs with
  | zero =>
    rw [packedPopChain]
    apply (mapChainDesc_collects fits).bind
    intro buffers _
    trivial
  | succ room ih =>
    rw [packedPopChain]
    apply (mapChainDesc_collects fits).bind
    intro buffers within
    obtain ⟨more, read, place⟩ := packedReadNext_ok table reads desc covers inside ring
    rw [read]
    cases more with
    | none => exact within
    | some following => exact ih (place _ _ rfl) within

theorem packedCountChain_collects {table : Nat → Nat → VRingPackedDesc} (covers : Covers mapped max)
    (inside : next < max) (ring : indirect = true ∨ max = num) :
    Collects (ChainCount.Within numBufs (numBufs + room))
      (packedCountChain num table mapped max indirect limits room reads numBufs next desc
        totals) := by
  induction room generalizing reads numBufs next desc totals with
  | zero => trivial
  | succ room ih =>
    rw [packedCountChain]
    split
    · trivial
    · obtain ⟨more, read, place⟩ := packedReadNext_ok table reads desc covers inside ring
      rw [read]
      cases more with
      | none => exact ⟨Nat.lt_succ_self _, by omega⟩
      | some following =>
        rw [show numBufs + (room + 1) = numBufs + 1 + room by omega]
        exact (ih (place _ _ rfl)).mono fun _ => ChainCount.Within.from_succ

/-! ### Elements -/

theorem checkDescCache_collects (vring : VRing) :
    Collects (fun mapped => vring.caches = some mapped ∧ Covers mapped vring.num)
      (checkDescCache vring) := by
  cases checked : checkDescCache vring with
  | ok mapped => exact checkDescCache_ok checked
  | error stop =>
    unfold checkDescCache at checked
    split at checked
    · cases checked
      trivial
    · split at checked <;> cases checked
      trivial

theorem splitPopBuffers_collects (inside : head.toNat < vq.vring.num) :
    Collects SgLists.Fits (splitPopBuffers guest vq head) := by
  have empty : SgLists.Fits {} := Nat.zero_le _
  apply (checkDescCache_collects vq.vring).bind
  intro mapped checked
  apply Collects.read checked.2 inside
  split
  · split
    · trivial
    · next sized =>
      rw [not_or, Decidable.not_not] at sized
      apply (mapIndirect_collects sized.1 sized.2).bind
      intro table entries
      obtain ⟨cache, max⟩ := table
      apply Collects.read entries.1 entries.2
      exact splitPopChain_collects entries.1 empty
  · exact splitPopChain_collects checked.2 empty

theorem splitCountElement_collects (guest : Guest) (limits totals : AvailBytes)
    (covers : Covers mapped num) (inside : head.toNat < num) (counted : totalBufs ≤ num) :
    Collects (ChainCount.Within totalBufs num)
      (splitCountElement guest num mapped limits head totalBufs totals) := by
  apply Collects.read covers inside
  split
  · split
    · trivial
    · next sized =>
      rw [not_or, Decidable.not_not] at sized
      split
      · trivial
      · apply (mapIndirect_collects sized.1 sized.2).bind
        intro table entries
        obtain ⟨cache, max⟩ := table
        apply Collects.read entries.1 entries.2
        apply (splitCountChain_collects entries.1).map
        intro count _
        cases count with
        | enough totals => trivial
        | ended count totals => exact ⟨Nat.lt_succ_self _, by omega⟩
  · have whole : totalBufs + (num - totalBufs) = num := by omega
    apply Collects.mono (splitCountChain_collects covers)
    intro count within
    rwa [whole] at within

theorem packedPopElement_collects
    (position : vq.lastAvailIdx.toNat < vq.vring.num)
    (tables : ∀ mapped, vq.vring.caches = some mapped → Covers mapped vq.vring.num →
      ¬ EmptyTable (guest.packedDesc 0 vq.lastAvailIdx.toNat)) :
    Collects (fun elem => elem.outSg.length + elem.inSg.length ≤ virtqueueMaxSize)
      (packedPopElement guest vq) := by
  have empty : SgLists.Fits {} := Nat.zero_le _
  apply (checkDescCache_collects vq.vring).bind
  intro mapped checked
  have filled := tables mapped checked.1 checked.2
  apply Collects.read checked.2 position
  split
  · next indirect =>
    split
    · trivial
    · next sized =>
      have some : (guest.packedDesc 0 vq.lastAvailIdx.toNat).len ≠ 0 :=
        fun zero => filled ⟨indirect, zero⟩
      apply (mapIndirect_collects some (Decidable.not_not.mp sized)).bind
      intro table entries
      obtain ⟨cache, max⟩ := table
      apply Collects.read entries.1 entries.2
      apply (packedPopChain_collects entries.1 entries.2 (.inl rfl) empty).map
      intro result fits
      exact fits
  · apply (packedPopChain_collects checked.2 position (.inr rfl) empty).map
    intro result fits
    exact fits

theorem packedPopElement_empty (position : vq.lastAvailIdx.toNat < vq.vring.num)
    (cached : vq.vring.caches = some mapped) (covers : Covers mapped vq.vring.num)
    (table : EmptyTable (guest.packedDesc 0 vq.lastAvailIdx.toNat)) :
    packedPopElement guest vq = .error (.fault .assertion) := by
  have checked : checkDescCache vq.vring = .ok mapped := by
    rw [checkDescCache, cached]
    exact if_neg (Nat.not_lt.mpr covers)
  rw [packedPopElement, checked]
  show ((readDescCached mapped _ _ _).mapError Stop.fault).bind _ = _
  rw [readDescCached_inside covers position]
  show (if _ then _ else _) = _
  rw [if_pos table.1, table.2, if_neg (by decide), mapIndirect_empty]
  rfl

theorem packedCountElement_collects (guest : Guest) (limits totals : AvailBytes)
    (covers : Covers mapped num) (inside : idx < num) (counted : totalBufs ≤ num)
    (filled : totalBufs < num → ¬ EmptyTable desc) :
    Collects (ChainCount.Within totalBufs num)
      (packedCountElement guest num mapped limits desc idx totalBufs totals) := by
  rw [packedCountElement]
  split
  · next indirect =>
    split
    · trivial
    · next sized =>
      split
      · trivial
      · next room =>
        have some : desc.len ≠ 0 := fun zero => filled (by omega) ⟨indirect, zero⟩
        apply (mapIndirect_collects some (Decidable.not_not.mp sized)).bind
        intro table entries
        obtain ⟨cache, max⟩ := table
        apply Collects.read entries.1 entries.2
        apply (packedCountChain_collects entries.1 entries.2 (.inl rfl)).map
        intro count _
        cases count with
        | enough totals => trivial
        | ended count totals => exact ⟨Nat.lt_succ_self _, by omega⟩
  · have whole : totalBufs + (num - totalBufs) = num := by omega
    apply Collects.mono (packedCountChain_collects covers inside (.inr rfl))
    intro count within
    rwa [whole] at within

theorem packedCountElement_empty (room : totalBufs < num) (table : EmptyTable desc) :
    packedCountElement guest num mapped limits desc idx totalBufs totals =
      .error (.fault .assertion) := by
  rw [packedCountElement, if_pos table.1, table.2, if_neg (by decide),
    if_neg (Nat.not_le.mpr room), mapIndirect_empty]
  rfl

/-! ### Pops -/

/-- What a pop needs of a packed ring: its head is mapped, and if it is available and
the ring is mapped it does not refer to an empty table. -/
def PackedPopClean (guest : Guest) (vq : VirtQueue) : Prop :=
  vq.vring.desc ≠ 0 → ∀ mapped, vq.vring.caches = some mapped →
    Covers mapped (vq.lastAvailIdx.toNat + 1) ∧
    (isDescAvail (guest.packedFlags vq.lastAvailIdx.toNat) vq.lastAvailWrapCounter = true →
      vq.inuse.toNat < vq.vring.num → Covers mapped vq.vring.num →
        ¬ EmptyTable (guest.packedDesc 0 vq.lastAvailIdx.toNat))

/-- Split rings need nothing. -/
def PopClean (guest : Guest) (vq : VirtQueue) : Prop :=
  virtioDeviceDisabled vq.vdev = false → vq.vdev.ringPacked = true → PackedPopClean guest vq

/-- The pop ends, what it returns is in the arrays, and the only fault is the record of
an in-order queue outside `used_elems`. -/
def PopSafe (vq : VirtQueue) : Checked (Option VirtQueueElement × VirtQueue) → Prop
  | .error fault =>
    fault = .outOfBounds ∧ vq.vdev.inOrder = true ∧ vq.usedElems.length ≤ recordIndex vq
  | .ok (some elem, _) => elem.outSg.length + elem.inSg.length ≤ virtqueueMaxSize
  | .ok (none, _) => True

theorem PopSafe.harmless {pop : Checked (Option VirtQueueElement × VirtQueue)}
    (safe : PopSafe vq pop) : Harmless pop := by
  constructor
  · intro failed
    rw [failed] at safe
    cases safe.1
  · intro failed
    rw [failed] at safe
    cases safe.1

theorem popSafe_record {seen : VirtQueue} {elem : VirtQueueElement} {next : VirtQueue → VirtQueue}
    (vdev : seen.vdev = vq.vdev) (usedElems : seen.usedElems = vq.usedElems)
    (stored : elem.outSg.length + elem.inSg.length ≤ virtqueueMaxSize) :
    PopSafe vq ((recordInOrder seen (recordIndex vq) elem).bind
      fun vq => .ok (some elem, next vq)) := by
  rw [recordInOrder]
  split
  · next ordered =>
    rw [readAt, usedElems]
    cases found : vq.usedElems[recordIndex vq]? with
    | none => exact ⟨rfl, vdev ▸ ordered, List.getElem?_eq_none_iff.mp found⟩
    | some old => exact stored
  · exact stored

theorem virtqueueSplitPop_safe (guest : Guest) (splitRing : vq.vdev.ringPacked = false) :
    PopSafe vq (virtqueueSplitPop guest vq) := by
  have tested : (virtioQueueEmptyRcu guest vq).2 =
      { vq with shadowAvailIdx := (virtioQueueEmptyRcu guest vq).2.shadowAvailIdx } := by
    rcases virtioQueueEmptyRcu_cases guest vq with empty | ⟨-, empty, shadow, tested, -⟩
    · rw [empty]
    · rw [tested]
  rw [virtqueueSplitPop]
  generalize virtioQueueEmptyRcu guest vq = result at tested
  obtain ⟨empty, seen⟩ := result
  dsimp only at tested ⊢
  split
  · trivial
  · split
    · trivial
    · split
      · trivial
      · next head taken =>
        have collects : Collects SgLists.Fits (splitPopBuffers guest
            { seen with lastAvailIdx := seen.lastAvailIdx + 1 } head) :=
          splitPopBuffers_collects (virtqueueGetHead_lt taken)
        split
        · next fault failed =>
          rw [failed] at collects
          exact collects.elim
        · trivial
        · next sgs collected =>
          rw [collected] at collects
          have index : recordIndex vq =
              ((seen.lastAvailIdx + 1).toUInt32 - 1).toNat % seen.vring.num := by
            rw [tested, recordIndex, splitRing]
            rfl
          rw [← index]
          apply popSafe_record
          · rw [tested]
          · rw [tested]
          · exact collects

theorem packedEmpty_mapped (ring : vq.vring.desc ≠ 0) (cached : vq.vring.caches = some mapped)
    (head : Covers mapped (vq.lastAvailIdx.toNat + 1)) :
    virtioQueuePackedEmptyRcu guest vq =
      .ok (!isDescAvail (guest.packedFlags vq.lastAvailIdx.toNat) vq.lastAvailWrapCounter) := by
  rw [virtioQueuePackedEmptyRcu, if_neg ring, cached]
  dsimp only
  rw [readDescCached_inside head (Nat.lt_succ_self _)]
  rfl

theorem packedEmpty_unmapped (ring : vq.vring.desc ≠ 0) (cached : vq.vring.caches = some mapped)
    (head : ¬ Covers mapped (vq.lastAvailIdx.toNat + 1)) :
    virtioQueuePackedEmptyRcu guest vq = .error .assertion := by
  rw [virtioQueuePackedEmptyRcu, if_neg ring, cached]
  dsimp only
  rw [readDescCached, if_pos (Nat.lt_of_not_le head)]
  rfl

theorem virtqueuePackedPop_safe (packed : vq.vdev.ringPacked = true)
    (position : vq.lastAvailIdx.toNat < vq.vring.num)
    (clean : PackedPopClean guest vq) :
    PopSafe vq (virtqueuePackedPop guest vq) := by
  rw [virtqueuePackedPop]
  by_cases ring : vq.vring.desc = 0
  · rw [virtioQueuePackedEmptyRcu, if_pos ring]
    trivial
  · cases cached : vq.vring.caches with
    | none =>
      rw [virtioQueuePackedEmptyRcu, if_neg ring, cached]
      trivial
    | some mapped =>
      obtain ⟨head, tables⟩ := clean ring mapped cached
      rw [packedEmpty_mapped ring cached head, bind_ok]
      split
      · trivial
      · next available =>
        split
        · trivial
        · next room =>
          have collects := packedPopElement_collects position fun other same covers => by
            rw [cached] at same
            cases same
            exact tables (by simpa using available) (Nat.lt_of_not_le room) covers
          split
          · next fault failed =>
            rw [failed] at collects
            exact collects.elim
          · trivial
          · next elem collected =>
            rw [collected] at collects
            have record : vq.lastAvailIdx.toNat = recordIndex vq := by
              rw [recordIndex, if_pos packed]
            rw [record]
            exact popSafe_record rfl rfl collects

/-- An unmapped head and an empty table both fail an assertion. -/
theorem virtqueuePackedPop_assertion (position : vq.lastAvailIdx.toNat < vq.vring.num)
    (unclean : ¬ PackedPopClean guest vq) : virtqueuePackedPop guest vq = .error .assertion := by
  rw [PackedPopClean] at unclean
  push Not at unclean
  obtain ⟨ring, mapped, cached, unclean⟩ := unclean
  rw [virtqueuePackedPop]
  by_cases head : Covers mapped (vq.lastAvailIdx.toNat + 1)
  · obtain ⟨available, room, covers, table⟩ := unclean head
    rw [packedEmpty_mapped ring cached head, bind_ok, if_neg (by simp [available]),
      if_neg (Nat.not_le.mpr room), packedPopElement_empty position cached covers table]
  · rw [packedEmpty_unmapped ring cached head, bind_error]

theorem virtqueuePop_safe
    (position : vq.vdev.ringPacked = true → vq.lastAvailIdx.toNat < vq.vring.num)
    (clean : PopClean guest vq) : PopSafe vq (virtqueuePop guest vq) := by
  rw [virtqueuePop]
  split
  · trivial
  · next enabled =>
    split
    · next packed =>
      exact virtqueuePackedPop_safe packed (position packed)
        (clean (by simpa using enabled) packed)
    · next splitRing => exact virtqueueSplitPop_safe guest (by simpa using splitRing)

theorem virtqueuePop_harmless_iff
    (position : vq.vdev.ringPacked = true → vq.lastAvailIdx.toNat < vq.vring.num) :
    Harmless (virtqueuePop guest vq) ↔ PopClean guest vq := by
  constructor
  · intro harmless enabled packed
    by_contra unclean
    rw [virtqueuePop, enabled, packed] at harmless
    exact harmless.1 (virtqueuePackedPop_assertion (position packed) unclean)
  · intro clean
    exact (virtqueuePop_safe position clean).harmless

/-! ### Scans -/

section Scan

variable {guests : Nat → Guest} {scan next : AvailScan}

/-- A scan has counted no more buffers than there are in the ring, and its position in a
packed ring is inside it. -/
structure ScanOk (vq : VirtQueue) (scan : AvailScan) : Prop where
  vring : scan.queue.vring = vq.vring
  counted : scan.totalBufs ≤ vq.vring.num
  inside : vq.vdev.ringPacked = true → scan.idx < vq.vring.num

/-- A turn does not fault, and if the scan goes on it has counted a buffer at least. -/
def TurnSafe (vq : VirtQueue) (scan : AvailScan) :
    Checked (Turn AvailScan (AvailBytes × VirtQueue)) → Prop
  | .error _ => False
  | .ok (.finish _) => True
  | .ok (.more next) => ScanOk vq next ∧ scan.totalBufs < next.totalBufs

theorem TurnSafe.not_error {fault : Fault}
    {turn : Checked (Turn AvailScan (AvailBytes × VirtQueue))} (safe : TurnSafe vq scan turn)
    (failed : turn = .error fault) : False := by
  rw [failed] at safe
  exact safe

theorem virtqueueNumHeads_vring (guest : Guest) (vq : VirtQueue) (idx : Nat) :
    (virtqueueNumHeads guest vq idx).2.vring = vq.vring := by
  have read : ((if vq.shadowAvailIdx.toNat ≠ idx then (vq.shadowAvailIdx, vq)
      else vringAvailIdx guest vq) : UInt16 × VirtQueue).2.vring = vq.vring := by
    split
    · rfl
    · rw [vringAvailIdx]
      split <;> rfl
  rw [virtqueueNumHeads]
  split
  next availIdx seen tested =>
    rw [tested] at read
    dsimp only
    split <;> exact read

theorem splitAvailTurn_safe (splitRing : vq.vdev.ringPacked = false)
    (covers : Covers mapped vq.vring.num) (ok : ScanOk vq scan) :
    TurnSafe vq scan (splitAvailTurn guests mapped limits scan) := by
  have vring := (virtqueueNumHeads_vring (guests scan.turn) scan.queue scan.idx).trans ok.vring
  rw [splitAvailTurn]
  split
  · trivial
  next heads seen tested =>
    rw [tested] at vring
    split
    · trivial
    · split
      · trivial
      next head taken =>
        have inside : head.toNat < vq.vring.num := vring ▸ virtqueueGetHead_lt taken
        rw [vring]
        have collects := splitCountElement_collects (guests scan.turn) limits scan.totals covers
          inside ok.counted
        split
        · next fault failed =>
          rw [failed] at collects
          exact collects.elim
        · trivial
        · trivial
        · next totalBufs totals counted =>
          rw [counted] at collects
          refine ⟨⟨vring, collects.2, fun packed => ?_⟩, collects.1⟩
          rw [splitRing] at packed
          cases packed

/-- What a turn of the scan of a packed ring needs: the element it comes to, if there
is one and there is room to count it, does not refer to an empty table. -/
def ScanTurnClean (guests : Nat → Guest) (num : Nat) (scan : AvailScan) : Prop :=
  let desc := (guests scan.turn).packedDesc 0 scan.idx
  isDescAvail desc.flags scan.wrapCounter = true → scan.totalBufs < num → ¬ EmptyTable desc

theorem packedAvailTurn_safe (packed : vq.vdev.ringPacked = true)
    (covers : Covers mapped vq.vring.num) (ok : ScanOk vq scan)
    (clean : ScanTurnClean guests vq.vring.num scan) :
    TurnSafe vq scan (packedAvailTurn guests mapped limits scan) := by
  have inside := ok.inside packed
  rw [packedAvailTurn]
  rw [readDescCached_inside covers inside, bind_ok, ok.vring]
  split
  · trivial
  next available =>
    have collects := packedCountElement_collects (guests scan.turn) limits scan.totals covers
      inside ok.counted (clean (by simpa using available))
    split
    · next fault failed =>
      rw [failed] at collects
      exact collects.elim
    · trivial
    · trivial
    · next totalBufs totals counted =>
      rw [counted] at collects
      refine ⟨⟨ok.vring, collects.2, fun _ => ?_⟩, collects.1⟩
      have bound := collects.2
      dsimp only
      by_cases wraps : vq.vring.num ≤ scan.idx + (totalBufs - scan.totalBufs)
      · rw [if_pos (decide_eq_true wraps)]
        omega
      · rw [if_neg (by simpa using wraps)]
        omega

theorem packedAvailTurn_assertion (packed : vq.vdev.ringPacked = true)
    (covers : Covers mapped vq.vring.num) (ok : ScanOk vq scan)
    (unclean : ¬ ScanTurnClean guests vq.vring.num scan) :
    packedAvailTurn guests mapped limits scan = .error .assertion := by
  rw [ScanTurnClean] at unclean
  push Not at unclean
  obtain ⟨available, room, table⟩ := unclean
  rw [packedAvailTurn]
  rw [readDescCached_inside covers (ok.inside packed), bind_ok, ok.vring,
    if_neg (by simp [available]), packedCountElement_empty room table]

/-- A turn faults exactly if it comes to an empty table in a packed ring. -/
theorem availTurn_error_iff (covers : Covers mapped vq.vring.num) (ok : ScanOk vq scan)
    (fault : Fault) :
    availTurn guests vq mapped limits scan = .error fault ↔
      vq.vdev.ringPacked = true ∧ ¬ ScanTurnClean guests vq.vring.num scan ∧
        fault = .assertion := by
  rw [availTurn]
  cases packed : vq.vdev.ringPacked with
  | false =>
    rw [if_neg Bool.false_ne_true]
    constructor
    · intro failed
      exact ((splitAvailTurn_safe packed covers ok).not_error failed).elim
    · intro impossible
      cases impossible.1
  | true =>
    rw [if_pos rfl]
    by_cases clean : ScanTurnClean guests vq.vring.num scan
    · constructor
      · intro failed
        exact ((packedAvailTurn_safe packed covers ok clean).not_error failed).elim
      · intro unclean
        exact absurd clean unclean.2.1
    · grind [packedAvailTurn_assertion]

theorem availTurn_more (covers : Covers mapped vq.vring.num) (ok : ScanOk vq scan)
    (taken : availTurn guests vq mapped limits scan = .ok (.more next)) :
    ScanOk vq next ∧ scan.totalBufs < next.totalBufs := by
  have safe : TurnSafe vq scan (availTurn guests vq mapped limits scan) := by
    rw [availTurn]
    split
    · next packed =>
      by_cases clean : ScanTurnClean guests vq.vring.num scan
      · exact packedAvailTurn_safe packed covers ok clean
      · rw [availTurn, if_pos packed, packedAvailTurn_assertion packed covers ok clean] at taken
        cases taken
    · next splitRing => exact splitAvailTurn_safe (by simpa using splitRing) covers ok
  rw [taken] at safe
  exact safe

end Scan

/-- What a scan needs of a packed ring that is mapped: every turn it comes to is clean. -/
def ScanClean (guests : Nat → Guest) (vq : VirtQueue) (limits : AvailBytes) : Prop :=
  vq.vdev.ringPacked = true → vq.vring.desc ≠ 0 →
    ∀ mapped, vq.vring.caches = some mapped → Covers mapped vq.vring.num →
      ∀ scan, LoopReaches (availTurn guests vq mapped limits) (.start vq) scan →
        ScanTurnClean guests vq.vring.num scan

theorem harmless_map {α : Type} {computation : Checked α} {f : α → β} :
    Harmless (computation.map f) ↔ Harmless computation := by
  cases computation <;> simp [Harmless, Except.map]

theorem virtqueueGetAvailBytes_harmless_iff {guests : Nat → Guest}
    (position : vq.vdev.ringPacked = true → vq.lastAvailIdx.toNat < vq.vring.num) :
    Harmless (virtqueueGetAvailBytes guests vq limits) ↔ ScanClean guests vq limits := by
  have returned (result : Int × AvailBytes × VirtQueue) : Harmless (.ok result) := ⟨nofun, nofun⟩
  rw [virtqueueGetAvailBytes]
  split
  · next missing => exact iff_of_true (returned _) fun _ ring => absurd missing ring
  next ring =>
    split
    · next uncached =>
      refine iff_of_true (returned _) fun _ _ mapped cached => ?_
      rw [uncached] at cached
      cases cached
    · next mapped cached =>
      split
      · next short =>
        refine iff_of_true (returned _) fun _ _ other same covers => ?_
        rw [cached] at same
        cases same
        exact absurd short (Nat.not_lt.mpr covers)
      · next long =>
        have covers : Covers mapped vq.vring.num := Nat.le_of_not_lt long
        have start : ScanOk vq (.start vq) := ⟨rfl, Nat.zero_le _, position⟩
        have falls (scan next : AvailScan) (ok : ScanOk vq scan)
            (taken : availTurn guests vq mapped limits scan = .ok (.more next)) :
            ScanOk vq next ∧
              vq.vring.num + 1 - next.totalBufs < vq.vring.num + 1 - scan.totalBufs := by
          obtain ⟨kept, more⟩ := availTurn_more covers ok taken
          have bound := kept.counted
          exact ⟨kept, by omega⟩
        -- Every turn that goes on leaves fewer buffers to count.
        have faults := runLoop_fault_iff (fun scan => vq.vring.num + 1 - scan.totalBufs)
          (ScanOk vq) falls start (Nat.lt_succ_self _)
        rw [harmless_map]
        constructor
        · intro harmless packed _ other same _ scan way
          rw [cached] at same
          cases same
          by_contra unclean
          have ok := way.invariant (ScanOk vq) start fun _ _ ok taken => (falls _ _ ok taken).1
          exact harmless.1 ((faults .assertion).mpr
            ⟨scan, way, (availTurn_error_iff covers ok _).mpr ⟨packed, unclean, rfl⟩⟩)
        · intro clean
          have never (fault : Fault) : runLoop (availTurn guests vq mapped limits)
              (vq.vring.num + 2) (.start vq) ≠ .error fault := by
            intro failed
            obtain ⟨scan, way, stops⟩ := (faults fault).mp failed
            have ok := way.invariant (ScanOk vq) start
              fun _ _ ok taken => (falls _ _ ok taken).1
            obtain ⟨packed, unclean, -⟩ := (availTurn_error_iff covers ok fault).mp stops
            exact unclean (clean packed ring mapped cached covers scan way)
          exact ⟨never .assertion, never .unfinished⟩

end QemuGzvm.Virtio
