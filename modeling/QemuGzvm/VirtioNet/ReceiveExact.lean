import QemuGzvm.VirtioNet.ReceiveRuns

/-!
Contract: the guest is handed exactly the packet, and when.

Owns:
- memory at the end of a successful receive, piece by piece of the first element;
- the exact condition under which what is published is a header and the packet;
- a ring whose first buffer is smaller than the header, for which it is not.
-/

namespace QemuGzvm.VirtioNet

open QemuGzvm.Library QemuGzvm.Library.Bytes QemuGzvm.Util

variable {net : RxConfig} {req : RxRequest net} {first : RxElement} {rest : List RxElement}
  {mem : Bytes} {later : RxRun} {ring : RxRing}

/-! ### Memory at the end -/

def firstMem (req : RxRequest net) (mem : Bytes) (first : RxElement) : Bytes :=
  storeAll (headerMem req mem first) ((iovAddresses first.inSg).drop net.guestHdrLen)
    ((rewritten net req.buf).drop net.hostHdrLen)

/-- The run of the loop whose later elements are those of `later`. -/
def wholeRun (req : RxRequest net) (first : RxElement) (later : RxRun) : RxRun :=
  ⟨later.mem, (first, net.guestHdrLen + firstBytes req first) :: later.used, none⟩

def finalMem (req : RxRequest net) (first : RxElement) (later : RxRun) : Bytes :=
  fillNumBuffers net (wholeRun req first later)

theorem finalMem_eq (req : RxRequest net) (first : RxElement) (later : RxRun) :
    finalMem req first later =
      if net.mergeableRxBufs then
        storeAll later.mem ((iovAddresses first.inSg).drop sizeofVnetHdr)
          (numBuffers net (later.used.length + 1))
      else later.mem :=
  fillNumBuffers_eq _ _ _ rfl

section Final

variable (apart : (ringAddresses (first :: rest)).Nodup)
  (filled : Filled rest ((rewritten net req.buf).drop (net.hostHdrLen + firstBytes req first))
    (firstMem req mem first) later)
include apart filled

/-- The first element keeps what it was filled with, `num_buffers` apart. -/
theorem finalMem_first {start count : Nat}
    (other : net.mergeableRxBufs = true →
      start + count ≤ sizeofVnetHdr ∨ sizeofMrgRxbuf ≤ start) :
    readPiece (finalMem req first later) (iovAddresses first.inSg) start count =
      readPiece (firstMem req mem first) (iovAddresses first.inSg) start count := by
  have disjoint := List.disjoint_of_nodup_append apart
  have kept := readPiece_congr (fun addr member => filled.frame addr (disjoint member)) start count
  rw [← kept, finalMem_eq]
  split
  · next merged =>
    apply readPiece_storeAll_other (List.Nodup.of_append_left apart)
    rw [numBuffers_length]
    exact other merged
  · rfl

/-- `num_buffers` does not lie in a later element. -/
theorem finalMem_later :
    later.used.flatMap (usedBytes (finalMem req first later)) =
      (rewritten net req.buf).drop (net.hostHdrLen + firstBytes req first) := by
  have disjoint := List.disjoint_of_nodup_append apart
  rw [← filled.bytes]
  apply List.flatMap_congr
  intro entry member
  apply List.map_congr_left
  intro addr inEntry
  have inRest : addr ∈ ringAddresses rest :=
    List.mem_flatMap.mpr ⟨entry.1, filled.fromRing entry member, List.mem_of_mem_take inEntry⟩
  rw [finalMem_eq]
  split
  · apply storeAll_of_not_mem
    intro inFirst
    exact disjoint (List.mem_of_mem_drop inFirst) inRest
  · rfl

theorem finalMem_header {start count : Nat}
    (other : net.mergeableRxBufs = true →
      start + count ≤ sizeofVnetHdr ∨ sizeofMrgRxbuf ≤ start)
    (inside : start + count ≤ net.guestHdrLen) :
    readPiece (finalMem req first later) (iovAddresses first.inSg) start count =
      readPiece (headerMem req mem first) (iovAddresses first.inSg) start count := by
  rw [finalMem_first apart filled other, firstMem]
  exact readPiece_storeAll_other (List.Nodup.of_append_left apart) (.inl inside) _

variable (room : net.guestHdrLen ≤ iovSize first.inSg)
include room

theorem guestHeader_final :
    GuestHeader req (wholeRun req first later).used.length
      (readPiece (finalMem req first later) (iovAddresses first.inSg) 0 net.guestHdrLen) := by
  have apartFirst := List.Nodup.of_append_left apart
  have plain := net.sizeofVnetHdr_le_guestHdrLen
  constructor
  · rw [readPiece, List.length_map, List.length_take, List.drop_zero, iovAddresses_length]
    exact Nat.min_eq_left room
  · have inside : 0 + sizeofVnetHdr ≤ net.guestHdrLen := by omega
    rw [← headerMem_vnet apartFirst room,
      ← finalMem_header apart filled (fun _ => .inl (Nat.le_refl _)) inside,
      ← take_drop_readPiece inside, List.drop_zero]
  · intro merged
    have fields := net.guestHdrLen_of_mergeable merged
    rw [take_drop_readPiece fields, finalMem_eq, if_pos merged, readPiece_storeAll apartFirst]
    · exact List.take_of_length_le (Nat.le_of_eq (numBuffers_length _ _))
    · exact Nat.le_of_eq (numBuffers_length _ _).symm
    · rw [iovAddresses_length]
      exact Nat.le_trans fields room
  · intro populate
    have whole : sizeofMrgRxbuf + 6 ≤ net.guestHdrLen := by
      rw [net.guestHdrLen_of_populateHash populate]
      decide
    rw [← headerMem_hash apartFirst room populate,
      ← finalMem_header apart filled (fun _ => .inr (Nat.le_refl _)) whole]
    exact take_drop_readPiece whole

/-- The bytes of all elements: the header, and the packet as `receive_header` left it. -/
theorem wholeRun_bytes :
    (wholeRun req first later).used.flatMap (usedBytes (finalMem req first later)) =
      readPiece (finalMem req first later) (iovAddresses first.inSg) 0 net.guestHdrLen ++
        (rewritten net req.buf).drop net.hostHdrLen := by
  have count : firstBytes req first ≤ ((rewritten net req.buf).drop net.hostHdrLen).length := by
    rw [List.length_drop, rewritten_length]
    exact Nat.min_le_left _ _
  have inside : net.guestHdrLen + firstBytes req first ≤ (iovAddresses first.inSg).length := by
    rw [iovAddresses_length, firstBytes]
    omega
  have packet : readPiece (finalMem req first later) (iovAddresses first.inSg) net.guestHdrLen
        (firstBytes req first) =
      ((rewritten net req.buf).drop net.hostHdrLen).take (firstBytes req first) := by
    rw [finalMem_first apart filled fun merged => .inr (net.guestHdrLen_of_mergeable merged)]
    exact readPiece_storeAll (List.Nodup.of_append_left apart) count inside _
  have ofFirst : usedBytes (finalMem req first later)
        (first, net.guestHdrLen + firstBytes req first) =
      readPiece (finalMem req first later) (iovAddresses first.inSg) 0
        (net.guestHdrLen + firstBytes req first) := rfl
  rw [wholeRun, List.flatMap_cons, finalMem_later apart filled, ofFirst, readPiece_add,
    Nat.zero_add, packet, List.append_assoc, ← List.drop_drop, List.take_append_drop]

end Final

/-! ### The exact condition -/

/-- A packet is published exactly when there is room; it is then handed over when the first
element has room for the header and the packet needed no repair. -/
theorem holdsPacket_iff (apart : (ringAddresses (first :: rest)).Nodup)
    (filled : Filled rest ((rewritten net req.buf).drop (net.hostHdrLen + firstBytes req first))
      (firstMem req mem first) later) :
    HoldsPacket req (finalMem req first later) (wholeRun req first later).used ↔
      net.guestHdrLen ≤ iovSize first.inSg ∧
        (rewritten net req.buf).drop net.hostHdrLen = req.buf.drop net.hostHdrLen := by
  constructor
  · intro holds
    have firstFits := holds.fits _ List.mem_cons_self
    have room : net.guestHdrLen ≤ iovSize first.inSg :=
      Nat.le_trans (Nat.le_add_right _ _) firstFits
    obtain ⟨header, isHeader, bytes⟩ := holds.bytes
    rw [wholeRun_bytes apart filled room] at bytes
    have sameLength := (guestHeader_final apart filled room).length.trans isHeader.length.symm
    exact ⟨room, (List.append_inj bytes sameLength).2⟩
  · rintro ⟨room, same⟩
    constructor
    · intro entry member
      rcases List.mem_cons.mp member with rfl | member
      · dsimp only [firstBytes]
        omega
      · exact filled.fits entry member
    · refine ⟨_, guestHeader_final apart filled room, ?_⟩
      rw [wholeRun_bytes apart filled room, same]

/-- The device looks at the buffers for the packet. -/
def Accepts (ring : RxRing) (req : RxRequest net) : Prop :=
  req.canReceive = true ∧
    virtioNetHasBuffers net ring (req.buf.length + net.guestHdrLen - net.hostHdrLen) = true ∧
    net.receiveFilter req.buf = true

/-- The device takes the packet, and the ring has room for it from `first` on. -/
def Takes (ring : RxRing) (req : RxRequest net) (first : RxElement) : Prop :=
  Accepts ring req ∧ req.buf ≠ [] ∧
    ∃ rest, ring.elems = first :: rest ∧
      RoomFor net first rest (req.buf.length - net.hostHdrLen)

/-- The first buffer has room for the guest's header, and the packet is not a DHCP reply whose
checksum has to be filled in. -/
def Deliverable (req : RxRequest net) (first : RxElement) : Prop :=
  net.guestHdrLen ≤ iovSize first.inSg ∧
    (net.hasVnetHdr = true → isDhcpReply net req.buf = true →
      net.netChecksumCalculate (req.buf.drop net.hostHdrLen) = req.buf.drop net.hostHdrLen)

theorem rewritten_drop_eq_iff :
    (rewritten net req.buf).drop net.hostHdrLen = req.buf.drop net.hostHdrLen ↔
      (net.hasVnetHdr = true → isDhcpReply net req.buf = true →
        net.netChecksumCalculate (req.buf.drop net.hostHdrLen) = req.buf.drop net.hostHdrLen) := by
  grind [rewritten_drop]

theorem handsOver_of_nothing (ret : Int) (mem : Bytes) (error : Option RxError) :
    HandsOver req ⟨ret, mem, [], error⟩ :=
  ⟨fun _ => rfl, fun published => absurd rfl published⟩

theorem handsOver_published_iff (ret : Int) (mem : Bytes) {used : List (RxElement × Nat)}
    (published : used ≠ []) :
    HandsOver req ⟨ret, mem, [used], none⟩ ↔ HoldsPacket req mem used := by
  grind [HandsOver]

theorem receive_refused (mem : Bytes) (refused : ¬Accepts ring req) :
    ∃ ret, virtioNetReceiveRcu net ring mem req = ⟨ret, mem, [], none⟩ := by
  unfold virtioNetReceiveRcu
  dsimp only
  split_ifs with can buffers passed
  · exact absurd ⟨can, buffers, passed⟩ refused
  · exact ⟨_, rfl⟩
  · exact ⟨_, rfl⟩
  · exact ⟨_, rfl⟩

section

variable (accepted : Accepts ring req)
include accepted

theorem receive_accepted {run : RxRun}
    (isRun : rxLoop net req.hash ring.elems 0 0 mem req.buf = run) :
    virtioNetReceiveRcu net ring mem req =
      run.error.elim ⟨req.buf.length, fillNumBuffers net run, [run.used], none⟩
        fun error => ⟨error.ret req.buf.length, run.mem, [], some error⟩ := by
  obtain ⟨can, buffers, passed⟩ := accepted
  unfold virtioNetReceiveRcu
  dsimp only
  rw [isRun, if_neg (not_not.mpr can), if_neg (not_not.mpr buffers), if_neg (not_not.mpr passed)]
  cases run.error <;> rfl

theorem handsOver_ended_iff (some_ : req.buf ≠ [])
    (isRing : ring.elems = first :: rest)
    (ended : (rxLoop net req.hash (first :: rest) 0 0 mem req.buf).error = none) :
    HandsOver req (virtioNetReceiveRcu net ring mem req) ↔ Deliverable req first := by
  have apart := ring.apart
  rw [isRing] at apart
  obtain ⟨later, isRun, filled⟩ := rxLoop_first apart some_ ended
  rw [receive_accepted accepted (by rw [isRing, isRun]), Deliverable, ← rewritten_drop_eq_iff]
  exact (handsOver_published_iff _ _ (List.cons_ne_nil _ _)).trans (holdsPacket_iff apart filled)

theorem handsOver_of_failed 
    (failed : (rxLoop net req.hash ring.elems 0 0 mem req.buf).error ≠ none) :
    HandsOver req (virtioNetReceiveRcu net ring mem req) := by
  rw [receive_accepted accepted rfl]
  obtain ⟨error, isError⟩ := Option.ne_none_iff_exists'.mp failed
  rw [isError]
  exact handsOver_of_nothing _ _ _

theorem handsOver_of_empty (empty : req.buf = []) :
    HandsOver req (virtioNetReceiveRcu net ring mem req) := by
  have done : req.buf.length ≤ 0 := Nat.le_of_eq (List.length_eq_zero_iff.mpr empty)
  rw [receive_accepted accepted (rxLoop_done done)]
  exact ⟨fun _ => rfl, fun published => absurd rfl published⟩

end

/-- Published elements hold a guest header and the packet, all at once, exactly when the first
buffer for every packet taken has room for the header and the packet's checksum is its own. -/
theorem receive_hands_over_iff (net : RxConfig) (ring : RxRing) (mem : Bytes)
    (req : RxRequest net) :
    HandsOver req (virtioNetReceiveRcu net ring mem req) ↔
      ∀ first, Takes ring req first → Deliverable req first := by
  by_cases accepted : Accepts ring req
  · by_cases empty : req.buf = []
    · exact iff_of_true (handsOver_of_empty accepted empty)
        fun first taken => absurd empty taken.2.1
    · by_cases ended : (rxLoop net req.hash ring.elems 0 0 mem req.buf).error = none
      · cases isRing : ring.elems with
        | nil =>
          rw [isRing] at ended
          exact absurd ended (rxLoop_empty (List.length_pos_iff.mpr empty))
        | cons first rest =>
          rw [isRing] at ended
          rw [handsOver_ended_iff accepted empty isRing ended]
          constructor
          · rintro deliverable other ⟨-, -, others, isOther, -⟩
            rw [isRing] at isOther
            cases isOther
            exact deliverable
          · intro deliverable
            exact deliverable first
              ⟨accepted, empty, rest, isRing, (rxLoop_first_ended_iff empty).mp ended⟩
      · apply iff_of_true (handsOver_of_failed accepted ended)
        rintro first ⟨-, -, rest, isRing, room⟩
        rw [isRing] at ended
        exact absurd ((rxLoop_first_ended_iff empty).mpr room) ended
  · obtain ⟨ret, isResult⟩ := receive_refused mem accepted
    rw [isResult]
    exact iff_of_true (handsOver_of_nothing _ _ _) fun first taken => absurd taken.1 accepted

/-! ### A first buffer that is too small -/

def mergingNet : RxConfig where
  mergeableRxBufs := true
  version1 := true
  hashReport := false
  hasVnetHdr := false
  needsVnetHdrSwap := false
  hostHdrLen := 0
  guestBigEndian := false
  hostBigEndian := false
  receiveFilter := fun _ => true
  netChecksumCalculate := id
  checksumLength := fun _ => rfl
  hostHdr := by decide

def shortFirstRing : RxRing where
  elems := [⟨0, [⟨0, 4⟩]⟩, ⟨1, [⟨100, 64⟩]⟩]
  apart := by decide +kernel

def threeBytes : RxRequest mergingNet where
  buf := [1, 2, 3]
  hasHeader := by decide
  hash := List.replicate 6 0
  hashLength := rfl
  canReceive := true

/-- The buffer of four bytes is published with the length of the header, twelve. -/
theorem receive_short_first :
    (virtioNetReceiveRcu mergingNet shortFirstRing (fun _ => 0) threeBytes).flushed =
        [[(⟨0, [⟨0, 4⟩]⟩, 12), (⟨1, [⟨100, 64⟩]⟩, 3)]] ∧
      ¬HandsOver threeBytes
        (virtioNetReceiveRcu mergingNet shortFirstRing (fun _ => 0) threeBytes) := by
  have isFlushed : (virtioNetReceiveRcu mergingNet shortFirstRing (fun _ => 0) threeBytes).flushed =
      [[(⟨0, [⟨0, 4⟩]⟩, 12), (⟨1, [⟨100, 64⟩]⟩, 3)]] := by
    decide +kernel
  refine ⟨isFlushed, fun handed => ?_⟩
  have holds := (handed.2 (by rw [isFlushed]; decide)).2
  exact absurd (holds.fits _ List.mem_cons_self) (by decide)

end QemuGzvm.VirtioNet
