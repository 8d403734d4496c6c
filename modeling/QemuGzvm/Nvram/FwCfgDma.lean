import QemuGzvm.Nvram.FwCfg

/-!
Contract: DMA commands of the firmware configuration device as reads of its data register.

Owns:
- the bytes that a DMA read delivers, with their addresses;
- guest accesses with DMA, and with every DMA read and skip replaced by reads of one byte.

A transfer takes the bytes that are left of an item in one turn and all that lies behind its end
in another one. Reads of one byte take the same bytes and leave the same offset.
-/

namespace QemuGzvm.Nvram

/-- Bytes that go to guest memory from an address on. -/
def placed (address : UInt64) (bytes : List UInt8) : List (UInt64 × UInt8) :=
  bytes.mapIdx fun k byte => (address + k.toUInt64, byte)

/-- What `dma_memory_write` and `dma_memory_set` deliver in the loop of a DMA read. -/
def dmaDelivered (s : FWCfgState) (address : UInt64) (length : Nat) : List (UInt64 × UInt8) :=
  if length = 0 then []
  else
    match _found : s.current with
    | none => placed address (List.replicate length 0)
    | some data =>
      let len := min length (data.length - s.curOffset)
      placed address ((data.drop s.curOffset).take len) ++
        dmaDelivered { s with curOffset := s.curOffset + len } (address + len.toUInt64)
          (length - len)
termination_by length
decreasing_by
  have := (FWCfgState.current_eq_some _found).2
  omega

/-- As many reads of one byte from the data register. -/
def readBytes : Nat → FWCfgState → List UInt8 × FWCfgState
  | 0, s => ([], s)
  | n + 1, s =>
    let read := fwCfgDataRead s 1
    let rest := readBytes n read.2
    (read.1.toUInt8 :: rest.1, rest.2)

inductive GuestRead where
  | select (key : UInt16)
  | data (size : Nat)
  | dma (space : DmaSpace) (block : UInt64)

/-- What a read gives to the guest: the value of the data register, or bytes in memory. -/
abbrev Given := UInt64 × List (UInt64 × UInt8)

def GuestRead.run (s : FWCfgState) : GuestRead → Given × FWCfgState
  | .select key => ((0, []), fwCfgSelect s key)
  | .data size => (((fwCfgDataRead s size).1, []), (fwCfgDataRead s size).2)
  | .dma space block =>
    let s := { s with dmaAddr := block }
    let delivered := (dmaStart space s).elim [] fun (access, s) =>
      if access.control &&& 2 ≠ 0 then dmaDelivered s access.address access.length.toNat else []
    ((0, delivered), (fwCfgDmaTransfer space s).1)

/-- The same with one-byte reads in place of the transfer. What a skip reads is dropped. -/
def GuestRead.byPort (s : FWCfgState) : GuestRead → Given × FWCfgState
  | .dma space block =>
    (dmaStart space { s with dmaAddr := block }).elim ((0, []), s) fun (access, s) =>
      let read := readBytes access.length.toNat s
      if access.control &&& 2 ≠ 0 then ((0, placed access.address read.1), read.2)
      else if access.control &&& 4 ≠ 0 then ((0, []), read.2)
      else ((0, []), s)
  | read => read.run s

/-- A DMA command is a read, a skip or a selection, and the accesses of guest memory succeed. -/
def GuestRead.Valid : GuestRead → Prop
  | .dma space block => (∃ access, space.access block = some access ∧ access.control &&& 16 = 0) ∧
    (∀ addr bytes, space.write addr bytes = false) ∧ ∀ addr len, space.set addr len = false
  | _ => True

/-- What the reads give, with `cur_entry` and `cur_offset` after each of them. -/
def outcomes (run : FWCfgState → GuestRead → Given × FWCfgState) (s : FWCfgState) :
    List GuestRead → List (Given × UInt16 × Nat)
  | [] => []
  | read :: reads =>
    let (given, s) := run s read
    (given, s.curEntry, s.curOffset) :: outcomes run s reads

/-- The bytes that are left of the selected item. -/
def FWCfgState.left (s : FWCfgState) : List UInt8 :=
  if s.curEntry = 0xffff then [] else ((s.entries s.item).data.getD []).drop s.curOffset

/-- Bytes joined behind a value, most significant byte first. -/
def joined (value : UInt64) (bytes : List UInt8) : UInt64 :=
  bytes.foldl (fun value byte => value <<< 8 ||| byte.toUInt64) value

variable {s : FWCfgState} {data : List UInt8} {space : DmaSpace}

/-! ### Reads of the data register -/

theorem FWCfgState.left_of_some (found : s.current = some data) :
    s.left = data.drop s.curOffset := by
  have isData := (current_eq_some found).1
  unfold current at found
  split at found
  · cases found
  · next valid => rw [left, if_neg valid, isData, Option.getD_some]

theorem FWCfgState.left_of_none (nothing : s.current = none) : s.left = [] := by
  unfold current at nothing
  unfold left
  split at nothing
  · next invalid => rw [if_pos invalid]
  · next valid =>
    rw [if_neg valid]
    cases isData : (s.entries s.item).data with
    | none => exact List.drop_nil
    | some data => simpa [isData, Option.filter_some] using nothing

theorem FWCfgState.left_moved (s : FWCfgState) (n : Nat) :
    { s with curOffset := s.curOffset + n }.left = s.left.drop n := by
  simp only [left, item]
  split
  · exact List.drop_nil.symm
  · exact List.drop_drop.symm

theorem fwCfgDataRead_left (s : FWCfgState) (size : Nat) :
    fwCfgDataRead s size =
      (joined 0 (s.left.take size) <<< (8 * (size - (s.left.take size).length)).toUInt64,
        { s with curOffset := s.curOffset + (s.left.take size).length }) := by
  unfold fwCfgDataRead
  split
  · next nothing => simp [FWCfgState.left_of_none nothing, joined]
  · next data found => rw [FWCfgState.left_of_some found]; rfl

/-- Behind the end of the item, zeros are read and the offset stays. -/
theorem readBytes_left (n : Nat) (s : FWCfgState) :
    readBytes n s = (s.left.take n ++ List.replicate (n - s.left.length) 0,
      { s with curOffset := s.curOffset + min n s.left.length }) := by
  induction n generalizing s with
  | zero => simp [readBytes]
  | succ n ih =>
    simp only [readBytes, ih, fwCfgDataRead_left, FWCfgState.left_moved]
    cases s.left with
    | nil => simp [joined, List.replicate_succ]
    | cons byte rest =>
      simp [joined, Nat.add_min_add_right]
      omega

theorem joined_zeros {n : Nat} (few : n < 8) (value : UInt64) :
    joined value (List.replicate n 0) = value <<< (8 * n).toUInt64 := by
  induction n generalizing value with
  | zero => simp [joined]
  | succ n ih =>
    have bounds : ∀ n < 7, (8 * n).toUInt64 < 64 ∧ 8 + (8 * n).toUInt64 < 64 ∧
        (8 * (n + 1)).toUInt64 = 8 + (8 * n).toUInt64 := by decide
    obtain ⟨count, sum, isSum⟩ := bounds n (by omega)
    rw [List.replicate_succ, joined, List.foldl_cons, ← joined, ih (by omega), isSum,
      UInt64.shiftLeft_add (by decide) count sum]
    simp

/-- The shift appends the zeros that are read behind the end of the item. -/
theorem fwCfgDataRead_eq {size : Nat} (few : size ≤ 8) (s : FWCfgState) :
    fwCfgDataRead s size = (joined 0 (readBytes size s).1, (readBytes size s).2) := by
  have behind : size - min size s.left.length = size - s.left.length := by omega
  have appended : joined 0 (s.left.take size ++ List.replicate (size - s.left.length) 0) =
      joined (joined 0 (s.left.take size)) (List.replicate (size - s.left.length) 0) :=
    List.foldl_append
  simp only [fwCfgDataRead_left, readBytes_left, List.length_take, behind, appended]
  by_cases fewer : size - s.left.length < 8
  · rw [joined_zeros fewer]
  · have nothing : s.left = [] := List.eq_nil_of_length_eq_zero (by omega)
    have all : size = 8 := by omega
    rw [nothing, all]
    rfl

/-! ### DMA transfers -/

theorem placed_append (address : UInt64) (xs ys : List UInt8) :
    placed address (xs ++ ys) = placed address xs ++ placed (address + xs.length.toUInt64) ys := by
  have moved (k : Nat) : address + (k + xs.length).toUInt64 =
      address + xs.length.toUInt64 + k.toUInt64 := by
    rw [Nat.add_comm, UInt64.add_assoc]
    simp
  simp only [placed, List.mapIdx_append, moved]

/-- A turn on an item takes what as many reads of one byte take. -/
theorem readBytes_turn (found : s.current = some data) {length len : Nat}
    (isLen : len = min length (data.length - s.curOffset)) :
    readBytes length s =
      let rest := readBytes (length - len) { s with curOffset := s.curOffset + len }
      ((data.drop s.curOffset).take len ++ rest.1, rest.2) := by
  have left := FWCfgState.left_of_some found
  rw [← List.length_drop, ← left] at isLen
  have all : len + (length - len) = length := by omega
  have behind : length - len - (s.left.length - len) = length - s.left.length := by omega
  have offset : s.curOffset + len + min (length - len) (s.left.length - len) =
      s.curOffset + min length s.left.length := by omega
  simp only [readBytes_left, FWCfgState.left_moved, ← left, ← List.append_assoc, ← List.take_add,
    List.length_drop, all, behind, offset]

theorem dmaDelivered_eq (s : FWCfgState) (address : UInt64) (length : Nat) :
    dmaDelivered s address length = placed address (readBytes length s).1 := by
  fun_induction dmaDelivered s address length with
  | case1 => rfl
  | case2 s address length _ nothing => simp [readBytes_left, FWCfgState.left_of_none nothing]
  | case3 s address length _ data found len ih =>
    have taken : ((data.drop s.curOffset).take len).length = len := by
      rw [List.length_take, List.length_drop]
      omega
    rw [readBytes_turn found rfl, placed_append, taken, ih]

/-- A read or a skip whose accesses succeed ends where as many reads of one byte end. -/
theorem dmaLoop_eq (writes : ∀ addr bytes, space.write addr bytes = false)
    (sets : ∀ addr len, space.set addr len = false) (mode : DmaMode) (noWrite : mode ≠ .write)
    (s : FWCfgState) (address : UInt64) (length : Nat) :
    dmaLoop space mode s address length = ((readBytes length s).2, false) := by
  have turn (s data address length len) :
      dmaTurn space mode s data address length len = (s, false) := by
    cases mode with
    | read => rw [dmaTurn, writes]
    | write => exact absurd rfl noWrite
    | skip => rfl
  fun_induction dmaLoop space mode s address length with
  | case1 => rfl
  | case2 s address length _ nothing =>
    cases mode <;> simp_all [readBytes_left, FWCfgState.left_of_none nothing]
  | case3 _ _ _ _ _ _ _ _ _ turned => cases turned.symm.trans (turn ..)
  | case4 s address length _ data found len after error turned after' _ ih =>
    cases turned.symm.trans (turn ..)
    rw [ih, readBytes_turn found rfl]

/-! ### Accesses -/

theorem GuestRead.run_eq {read : GuestRead} (valid : read.Valid) (s : FWCfgState) :
    read.run s = read.byPort s := by
  cases read with
  | select key => rfl
  | data size => rfl
  | dma space block =>
    obtain ⟨⟨access, isAccess, noWrite⟩, writes, sets⟩ := valid
    have loop (mode) (noWrite) (s) :=
      dmaLoop_eq writes sets mode noWrite s access.address access.length.toNat
    simp only [run, byPort, dmaStart, isAccess, fwCfgDmaTransfer, Option.map_some,
      Option.elim_some, noWrite, dmaDelivered_eq, loop .read DmaMode.noConfusion,
      loop .skip DmaMode.noConfusion]
    by_cases reads : access.control &&& 2 = 0 <;> by_cases skips : access.control &&& 4 = 0 <;>
      simp [reads, skips]

/-- A command that reads six bytes, in an address space where no access fails. -/
def readSix : DmaSpace :=
  ⟨fun _ => some ⟨2, 6, 0x1000⟩, fun _ buf => (buf, false), fun _ _ => false, fun _ _ => false,
    fun _ _ => rfl⟩

end QemuGzvm.Nvram
