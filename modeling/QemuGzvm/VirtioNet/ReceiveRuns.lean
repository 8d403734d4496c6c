import QemuGzvm.VirtioNet.Receive

/-!
Contract: what the guest finds in the buffers that virtio-net publishes for a packet.

Owns:
- that the elements after the first get the rest of the packet, byte by byte;
- when the loop over the buffers ends without an error, in terms of the ring;
- the header in the first element, when the element has room for one.

`total += n->guest_hdr_len` is added to the used length of the first element whatever its size is,
while `iov_from_buf` stops at its end: an element smaller than the header is published with a
length that it does not have, and the header is cut off.
-/

namespace QemuGzvm.VirtioNet

open QemuGzvm.Library QemuGzvm.Library.Bytes QemuGzvm.Util

variable {net : RxConfig} {data buf hash : List UInt8} {elem : RxElement} {mem : Bytes}
  {rest avail : List RxElement} {i offset limit need : Nat}

/-! ### What the guest reads -/

/-- The bytes that a used element has, up to its used length. -/
def usedBytes (mem : Bytes) (used : RxElement × Nat) : List UInt8 :=
  ((iovAddresses used.1.inSg).take used.2).map mem

/-- The fields of the guest's header that are filled in. The padding after the hash is not, and
neither is `num_buffers` where buffers are not merged. -/
structure GuestHeader (req : RxRequest net) (count : Nat) (header : List UInt8) : Prop where
  length : header.length = net.guestHdrLen
  vnet : header.take sizeofVnetHdr = vnetHdr net req.buf
  count : net.mergeableRxBufs = true → (header.drop sizeofVnetHdr).take 2 = numBuffers net count
  hash : net.populateHash = true → (header.drop sizeofMrgRxbuf).take 6 = req.hash

/-- The published elements hold a header and the packet. -/
structure HoldsPacket (req : RxRequest net) (mem : Bytes) (used : List (RxElement × Nat)) :
    Prop where
  fits : ∀ entry ∈ used, entry.2 ≤ iovSize entry.1.inSg
  bytes : ∃ header, GuestHeader req used.length header ∧
    used.flatMap (usedBytes mem) = header ++ req.buf.drop net.hostHdrLen

/-- What is published holds the packet and is published at once; nothing is after an error. -/
def HandsOver (req : RxRequest net) (res : RxResult) : Prop :=
  (res.error ≠ none → res.flushed.flatten = []) ∧
    (res.flushed.flatten ≠ [] →
      res.flushed.length = 1 ∧ HoldsPacket req res.mem res.flushed.flatten)

/-! ### The loop -/

theorem rxLoop_done (done : buf.length ≤ offset) :
    rxLoop net hash avail i offset mem buf = ⟨mem, [], none⟩ := by
  cases avail <;> exact if_neg (Nat.not_lt.mpr done)

theorem rxLoop_empty (more : offset < buf.length) :
    (rxLoop net hash [] i offset mem buf).error ≠ none := by
  rw [rxLoop, if_pos more]
  split <;> simp

structure Passes (net : RxConfig) (elem : RxElement) (i : Nat) (copied : RxCopy) : Prop where
  short : i ≠ virtqueueMaxSize
  inBuffers : elem.inSg ≠ []
  room : net.mergeableRxBufs = true ∨ copied.buf.length ≤ copied.offset

theorem rxLoop_passes (more : offset < buf.length)
    (passes : Passes net elem i (rxCopy net hash i offset mem buf elem.inSg)) :
    rxLoop net hash (elem :: rest) i offset mem buf =
      let copied := rxCopy net hash i offset mem buf elem.inSg
      let later := rxLoop net hash rest (i + 1) copied.offset copied.mem copied.buf
      ⟨later.mem, (elem, copied.total) :: later.used, later.error⟩ := by
  have someBuffers : ¬elem.inSg.length < 1 := by
    have := List.length_pos_iff.mpr passes.inBuffers
    omega
  rw [rxLoop, if_pos more, if_neg passes.short, if_neg someBuffers]
  apply if_neg
  rintro ⟨single, left⟩
  rcases passes.room with merged | done
  · exact single merged
  · omega

theorem passes_of_ended (more : offset < buf.length)
    (ended : (rxLoop net hash (elem :: rest) i offset mem buf).error = none) :
    Passes net elem i (rxCopy net hash i offset mem buf elem.inSg) := by
  rw [rxLoop, if_pos more] at ended
  dsimp only at ended
  split at ended
  · simp at ended
  · next short =>
    split at ended
    · simp at ended
    · next inBuffers =>
      split at ended
      · simp at ended
      · next room =>
        refine ⟨short, fun noBuffers => inBuffers (by simp [noBuffers]), ?_⟩
        by_cases merged : net.mergeableRxBufs = true
        · exact .inl merged
        · exact .inr (Nat.not_lt.mp fun left => room ⟨merged, left⟩)

/-! ### The elements after the first -/

theorem usedBytes_storeAll {after : Bytes} (apart : (iovAddresses elem.inSg).Nodup)
    (kept : ∀ addr ∈ iovAddresses elem.inSg,
      after addr = storeAll mem (iovAddresses elem.inSg) data addr) :
    usedBytes after (elem, min data.length (iovSize elem.inSg)) =
      data.take (min data.length (iovSize elem.inSg)) := by
  have sameAddresses : (iovAddresses elem.inSg).take (min data.length (iovSize elem.inSg)) =
      (iovAddresses elem.inSg).take data.length := by
    rw [← List.take_take, List.take_of_length_le (Nat.le_of_eq (iovAddresses_length elem.inSg))]
  have sameData : data.take (min data.length (iovSize elem.inSg)) =
      data.take (iovSize elem.inSg) := by
    rw [Nat.min_comm, ← List.take_take, List.take_of_length_le (Nat.le_refl data.length)]
  rw [usedBytes, sameAddresses, sameData, ← iovAddresses_length, ← map_storeAll apart mem data]
  apply List.map_congr_left
  intro addr member
  exact kept addr (List.mem_of_mem_take member)

/-- What the loop has done to memory and to the elements when it ends without an error. -/
structure Filled (avail : List RxElement) (data : List UInt8) (mem : Bytes) (run : RxRun) :
    Prop where
  bytes : run.used.flatMap (usedBytes run.mem) = data
  fits : ∀ entry ∈ run.used, entry.2 ≤ iovSize entry.1.inSg
  fromRing : ∀ entry ∈ run.used, entry.1 ∈ avail
  frame : ∀ addr, addr ∉ ringAddresses avail → run.mem addr = mem addr

theorem ringAddresses_cons (elem : RxElement) (rest : List RxElement) :
    ringAddresses (elem :: rest) = iovAddresses elem.inSg ++ ringAddresses rest := rfl

theorem filled_nothing (avail : List RxElement) (mem : Bytes) :
    Filled avail [] mem ⟨mem, [], none⟩ :=
  ⟨rfl, nofun, nofun, fun _ _ => rfl⟩

theorem Filled.cons {run : RxRun} (apart : (ringAddresses (elem :: rest)).Nodup)
    (filled : Filled rest (data.drop (min data.length (iovSize elem.inSg)))
      (storeAll mem (iovAddresses elem.inSg) data) run) :
    Filled (elem :: rest) data mem
      ⟨run.mem, (elem, min data.length (iovSize elem.inSg)) :: run.used, run.error⟩ := by
  rw [ringAddresses_cons] at apart
  have disjoint := List.disjoint_of_nodup_append apart
  have first : usedBytes run.mem (elem, min data.length (iovSize elem.inSg)) =
      data.take (min data.length (iovSize elem.inSg)) :=
    usedBytes_storeAll (List.Nodup.of_append_left apart)
      fun addr member => filled.frame addr (disjoint member)
  constructor
  · rw [List.flatMap_cons, first, filled.bytes, List.take_append_drop]
  · grind [Filled]
  · grind [Filled]
  · grind [Filled, ringAddresses_cons, storeAll_of_not_mem]

theorem rxLoop_filled (later : i ≠ 0) (apart : (ringAddresses avail).Nodup)
    (ended : (rxLoop net hash avail i offset mem buf).error = none) :
    Filled avail (buf.drop offset) mem (rxLoop net hash avail i offset mem buf) := by
  induction avail generalizing i offset mem with
  | nil =>
    by_cases more : offset < buf.length
    · exact absurd ended (rxLoop_empty more)
    · rw [rxLoop_done (Nat.not_lt.mp more), List.drop_of_length_le (Nat.not_lt.mp more)]
      exact filled_nothing _ _
  | cons elem rest ih =>
    by_cases more : offset < buf.length
    · have passes := passes_of_ended more ended
      rw [rxLoop_passes more passes] at ended ⊢
      rw [rxCopy_later later] at ended ⊢
      have restFilled := ih (Nat.succ_ne_zero i)
        (List.Nodup.of_append_right apart) ended
      rw [← List.drop_drop, ← List.length_drop] at restFilled
      have extended := restFilled.cons apart
      rw [List.length_drop] at extended
      exact extended
    · rw [rxLoop_done (Nat.not_lt.mp more), List.drop_of_length_le (Nat.not_lt.mp more)]
      exact filled_nothing _ _

/-! ### When there is room -/

/-- At most `limit` elements from the front, all of them with in buffers, have room for `need`
bytes. -/
def RoomWithin (avail : List RxElement) (limit need : Nat) : Prop :=
  ∃ k ≤ limit, (∀ elem ∈ avail.take k, elem.inSg ≠ []) ∧ need ≤ ringBytes (avail.take k)

theorem roomWithin_zero (avail : List RxElement) (limit : Nat) : RoomWithin avail limit 0 :=
  ⟨0, Nat.zero_le _, nofun, Nat.zero_le _⟩

theorem not_roomWithin_nil (some_ : 0 < need) : ¬RoomWithin [] limit need := by
  rintro ⟨k, -, -, enough⟩
  rw [List.take_nil] at enough
  exact absurd enough (Nat.not_le.mpr some_)

theorem roomWithin_cons (some_ : 0 < need) :
    RoomWithin (elem :: rest) limit need ↔
      0 < limit ∧ elem.inSg ≠ [] ∧ RoomWithin rest (limit - 1) (need - iovSize elem.inSg) := by
  constructor
  · rintro ⟨k, within, inBuffers, enough⟩
    cases k with
    | zero => exact absurd enough (Nat.not_le.mpr some_)
    | succ k =>
      have bytes : ringBytes ((elem :: rest).take (k + 1)) =
          iovSize elem.inSg + ringBytes (rest.take k) := rfl
      rw [List.take_succ_cons, List.forall_mem_cons] at inBuffers
      exact ⟨by omega, inBuffers.1, k, by omega, inBuffers.2, by omega⟩
  · rintro ⟨positive, first, k, within, inBuffers, enough⟩
    have bytes : ringBytes ((elem :: rest).take (k + 1)) =
        iovSize elem.inSg + ringBytes (rest.take k) := rfl
    refine ⟨k + 1, by omega, ?_, by omega⟩
    rw [List.take_succ_cons, List.forall_mem_cons]
    exact ⟨first, inBuffers⟩

/-- With merged buffers the loop ends well when there is room in the elements that it may use. -/
theorem rxLoop_ended_iff (merged : net.mergeableRxBufs = true) (later : i ≠ 0)
    (within : i ≤ virtqueueMaxSize) :
    (rxLoop net hash avail i offset mem buf).error = none ↔
      RoomWithin avail (virtqueueMaxSize - i) (buf.length - offset) := by
  induction avail generalizing i offset mem with
  | nil =>
    by_cases more : offset < buf.length
    · exact iff_of_false (rxLoop_empty more) (not_roomWithin_nil (by omega))
    · rw [rxLoop_done (Nat.not_lt.mp more), Nat.sub_eq_zero_of_le (Nat.not_lt.mp more)]
      exact iff_of_true rfl (roomWithin_zero _ _)
  | cons elem rest ih =>
    by_cases more : offset < buf.length
    · have left : buf.length - (offset + min (buf.length - offset) (iovSize elem.inSg)) =
          buf.length - offset - iovSize elem.inSg := by
        omega
      rw [roomWithin_cons (by omega)]
      constructor
      · intro ended
        have passes := passes_of_ended more ended
        have short := passes.short
        rw [rxLoop_passes more passes, rxCopy_later later] at ended
        have room := (ih (Nat.succ_ne_zero i) (by omega)).mp ended
        rw [left] at room
        exact ⟨by omega, passes.inBuffers, room⟩
      · rintro ⟨short, inBuffers, room⟩
        rw [rxLoop_passes more ⟨by omega, inBuffers, .inl merged⟩, rxCopy_later later]
        apply (ih (Nat.succ_ne_zero i) (by omega)).mpr
        rw [left]
        exact room
    · rw [rxLoop_done (Nat.not_lt.mp more), Nat.sub_eq_zero_of_le (Nat.not_lt.mp more)]
      exact iff_of_true rfl (roomWithin_zero _ _)

/-! ### The first element -/

section First

variable {req : RxRequest net} {first : RxElement}

/-- The bytes after the header that the first element has room for. -/
def firstBytes (req : RxRequest net) (first : RxElement) : Nat :=
  min (req.buf.length - net.hostHdrLen) (iovSize first.inSg - net.guestHdrLen)

theorem rxCopy_first (mem : Bytes) (first : RxElement) :
    rxCopy net req.hash 0 0 mem req.buf first.inSg =
      ⟨storeAll (headerInto net req.hash mem req.buf first.inSg).1
          ((iovAddresses first.inSg).drop net.guestHdrLen)
          ((rewritten net req.buf).drop net.hostHdrLen),
        rewritten net req.buf, net.hostHdrLen + firstBytes req first,
        net.guestHdrLen + firstBytes req first⟩ := by
  rw [rxCopy, if_pos rfl]
  dsimp only
  rw [iovFromBuf_eq, headerInto_buf, List.length_drop, rewritten_length]
  rfl

/-- The header of a packet fits the elements of the ring and its bytes do. -/
def RoomFor (net : RxConfig) (first : RxElement) (rest : List RxElement) (bytes : Nat) : Prop :=
  first.inSg ≠ [] ∧
    if net.mergeableRxBufs then
      RoomWithin rest (virtqueueMaxSize - 1) (bytes - (iovSize first.inSg - net.guestHdrLen))
    else bytes ≤ iovSize first.inSg - net.guestHdrLen

theorem passes_first (inBuffers : first.inSg ≠ [])
    (room : net.mergeableRxBufs = true ∨
      req.buf.length - net.hostHdrLen ≤ iovSize first.inSg - net.guestHdrLen) :
    Passes net first 0 (rxCopy net req.hash 0 0 mem req.buf first.inSg) := by
  refine ⟨by decide, inBuffers, room.imp_right fun enough => ?_⟩
  rw [rxCopy_first, rewritten_length]
  dsimp only [firstBytes]
  omega

theorem rxLoop_first_ended_iff (some_ : req.buf ≠ []) :
    (rxLoop net req.hash (first :: rest) 0 0 mem req.buf).error = none ↔
      RoomFor net first rest (req.buf.length - net.hostHdrLen) := by
  have header := req.hasHeader
  have more := List.length_pos_iff.mpr some_
  constructor
  · intro ended
    have passes := passes_of_ended more ended
    refine ⟨passes.inBuffers, ?_⟩
    have room := passes.room
    rw [rxLoop_passes more passes, rxCopy_first] at ended
    rw [rxCopy_first, rewritten_length] at room
    split
    · next merged =>
      have within := (rxLoop_ended_iff merged Nat.one_ne_zero (by decide)).mp ended
      rw [rewritten_length] at within
      convert within using 1
      dsimp only [firstBytes]
      omega
    · grind [firstBytes]
  · rintro ⟨inBuffers, room⟩
    split at room
    · next merged =>
      rw [rxLoop_passes more (passes_first inBuffers (.inl merged)), rxCopy_first]
      apply (rxLoop_ended_iff merged Nat.one_ne_zero (by decide)).mpr
      rw [rewritten_length]
      convert room using 1
      dsimp only [firstBytes]
      omega
    · next single =>
      rw [rxLoop_passes more (passes_first inBuffers (.inr room)), rxCopy_first]
      dsimp only
      rw [rxLoop_done]
      rw [rewritten_length]
      dsimp only [firstBytes]
      omega

/-- Memory with the header of the first element in it, before `num_buffers` is known. -/
abbrev headerMem (req : RxRequest net) (mem : Bytes) (first : RxElement) : Bytes :=
  (headerInto net req.hash mem req.buf first.inSg).1

theorem headerMem_eq (req : RxRequest net) (mem : Bytes) (first : RxElement) :
    headerMem req mem first =
      let addrs := iovAddresses first.inSg
      let plain := storeAll mem (addrs.drop 0) (vnetHdr net req.buf)
      if net.populateHash then storeAll plain (addrs.drop sizeofMrgRxbuf) req.hash else plain := by
  unfold headerMem headerInto receiveHeader
  dsimp only
  rw [iovFromBuf_eq, iovFromBuf_eq]
  split <;> rfl

section Header

variable (apart : (iovAddresses first.inSg).Nodup) (room : net.guestHdrLen ≤ iovSize first.inSg)
include apart room

theorem headerMem_vnet :
    readPiece (headerMem req mem first) (iovAddresses first.inSg) 0 sizeofVnetHdr =
      vnetHdr net req.buf := by
  have guest := net.sizeofVnetHdr_le_guestHdrLen
  have isLength := vnetHdr_length req
  have plain : readPiece (storeAll mem ((iovAddresses first.inSg).drop 0) (vnetHdr net req.buf))
      (iovAddresses first.inSg) 0 sizeofVnetHdr = vnetHdr net req.buf := by
    grind [readPiece_storeAll, iovAddresses_length, Nat.le_of_eq]
  rw [headerMem_eq]
  split
  · rw [readPiece_storeAll_other apart (.inl (by decide)), plain]
  · exact plain

theorem headerMem_hash (populate : net.populateHash = true) :
    readPiece (headerMem req mem first) (iovAddresses first.inSg) sizeofMrgRxbuf 6 = req.hash := by
  have isLength := req.hashLength
  rw [net.guestHdrLen_of_populateHash populate, sizeofV1Hash] at room
  rw [headerMem_eq]
  rw [if_pos populate, readPiece_storeAll apart (Nat.le_of_eq isLength.symm)]
  · exact List.take_of_length_le (Nat.le_of_eq isLength)
  · rw [iovAddresses_length, sizeofMrgRxbuf]
    omega

end Header

/-- `num_buffers` is stored as far as the first element has room for it. -/
theorem fillNumBuffers_eq (run : RxRun) (len : Nat) (used : List (RxElement × Nat))
    (isUsed : run.used = (first, len) :: used) :
    fillNumBuffers net run =
      if net.mergeableRxBufs then
        storeAll run.mem ((iovAddresses first.inSg).drop sizeofVnetHdr)
          (numBuffers net run.used.length)
      else run.mem := by
  have isSg : mhdrSg net run.used =
      if net.mergeableRxBufs then iovCopy virtqueueMaxSize first.inSg sizeofVnetHdr 2 else [] := by
    rw [isUsed]
    rfl
  have stored : storeAll run.mem
        (iovAddresses (iovCopy virtqueueMaxSize first.inSg sizeofVnetHdr 2))
        (numBuffers net run.used.length) =
      storeAll run.mem ((iovAddresses first.inSg).drop sizeofVnetHdr)
        (numBuffers net run.used.length) := by
    rw [iovAddresses_iovCopy (by decide), ← numBuffers_length net run.used.length, storeAll_take]
  unfold fillNumBuffers
  dsimp only
  rw [isSg]
  split
  · split
    · rw [iovFromBuf_eq, List.drop_zero, stored]
    · next nothing =>
      rw [← stored, List.length_eq_zero_iff.mp (not_not.mp nothing)]
      rfl
  · rfl

/-! ### What is published -/

section Published

variable (apart : (ringAddresses (first :: rest)).Nodup) (some_ : req.buf ≠ [])
  (ended : (rxLoop net req.hash (first :: rest) 0 0 mem req.buf).error = none)
include apart some_ ended

theorem rxLoop_first :
    ∃ later : RxRun,
      rxLoop net req.hash (first :: rest) 0 0 mem req.buf =
        ⟨later.mem, (first, net.guestHdrLen + firstBytes req first) :: later.used, none⟩ ∧
      Filled rest ((rewritten net req.buf).drop (net.hostHdrLen + firstBytes req first))
        (storeAll (headerMem req mem first) ((iovAddresses first.inSg).drop net.guestHdrLen)
          ((rewritten net req.buf).drop net.hostHdrLen)) later := by
  have more := List.length_pos_iff.mpr some_
  have passes := passes_of_ended more ended
  rw [rxLoop_passes more passes, rxCopy_first] at ended ⊢
  refine ⟨_, ?_, rxLoop_filled Nat.one_ne_zero (List.Nodup.of_append_right apart) ended⟩
  dsimp only at ended ⊢
  rw [ended]

end Published

end First

end QemuGzvm.VirtioNet
