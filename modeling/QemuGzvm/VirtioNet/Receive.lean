import QemuGzvm.VirtioNet.Transmit

/-!
Contract: a packet received by virtio-net (`virtio_net_receive_rcu`, `virtio_net_has_buffers` and
`receive_header` of `hw/net/virtio-net.c`).

Owns:
- the header lengths that the features set;
- the header and the packet that the guest is given, the repair of checksums for DHCP clients
  included;
- the loop over the buffers of the ring, with its errors, and what is published at its end.

The ring does not change during the call, and no two of its buffers overlap. The filter, the
software RSS hash and the checksum of a packet are parameters.
-/

namespace QemuGzvm.VirtioNet

open QemuGzvm.Library QemuGzvm.Util

/-! ### Configuration -/

def sizeofMrgRxbuf : Nat := 12

def sizeofV1Hash : Nat := 20

structure RxConfig where
  mergeableRxBufs : Bool
  /-- `VIRTIO_F_VERSION_1` and `VIRTIO_NET_F_HASH_REPORT` -/
  version1 : Bool
  hashReport : Bool
  hasVnetHdr : Bool
  needsVnetHdrSwap : Bool
  hostHdrLen : Nat
  /-- `virtio_access_is_big_endian`, and the same for the host. -/
  guestBigEndian : Bool
  hostBigEndian : Bool
  receiveFilter : List UInt8 → Bool
  /-- `net_checksum_calculate(…, CSUM_UDP)`, which works in place. -/
  netChecksumCalculate : List UInt8 → List UInt8
  checksumLength : ∀ packet, (netChecksumCalculate packet).length = packet.length
  /-- Set when the device is realized, or to the guest's by `virtio_net_set_mrg_rx_bufs`. -/
  hostHdr : hostHdrLen ∈
    if hasVnetHdr then [sizeofVnetHdr, sizeofMrgRxbuf, sizeofV1Hash] else [0]

namespace RxConfig

def populateHash (net : RxConfig) : Bool := net.version1 && net.hashReport

/-- As `virtio_net_set_mrg_rx_bufs` sets it. -/
def guestHdrLen (net : RxConfig) : Nat :=
  if net.version1 then if net.hashReport then sizeofV1Hash else sizeofMrgRxbuf
  else if net.mergeableRxBufs then sizeofMrgRxbuf else sizeofVnetHdr

end RxConfig

/-- A packet from the peer, with what is known about it before the buffers are looked at. -/
structure RxRequest (net : RxConfig) where
  buf : List UInt8
  hasHeader : net.hostHdrLen ≤ buf.length
  /-- `hash_value` and `hash_report` of `extra_hdr`. -/
  hash : List UInt8
  hashLength : hash.length = 6
  /-- `virtio_net_can_receive` -/
  canReceive : Bool

structure RxElement where
  index : Nat
  inSg : List IoVec
deriving DecidableEq, Repr

def ringAddresses (elems : List RxElement) : List Nat :=
  elems.flatMap fun elem => iovAddresses elem.inSg

def ringBytes (elems : List RxElement) : Nat := (elems.map fun elem => iovSize elem.inSg).sum

structure RxRing where
  elems : List RxElement
  apart : (ringAddresses elems).Nodup

/-! ### The header -/

/-- The condition in `work_around_broken_dhclient`: a DHCP reply without a checksum. -/
def isDhcpReply (net : RxConfig) (buf : List UInt8) : Bool :=
  let packet := buf.drop net.hostHdrLen
  buf.getD 0 0 &&& 1 != 0 &&
    (42 ≤ packet.length && packet.length < 1500) &&
    (packet.getD 12 0 == 8 && packet.getD 13 0 == 0) &&
    packet.getD 23 0 == 17 &&
    (packet.getD 34 0 == 0 && packet.getD 35 0 == 67)

def workAroundBrokenDhclient (net : RxConfig) (buf : List UInt8) : List UInt8 :=
  if isDhcpReply net buf then
    (buf.take net.hostHdrLen).set 0 (buf.getD 0 0 &&& ~~~1) ++
      net.netChecksumCalculate (buf.drop net.hostHdrLen)
  else buf

/-- `virtio_net_hdr_swap`: the four 16-bit fields after `flags` and `gso_type`. -/
def virtioNetHdrSwap (net : RxConfig) (buf : List UInt8) : List UInt8 :=
  if net.guestBigEndian = net.hostBigEndian then buf
  else
    match buf with
    | flags :: gsoType :: a :: b :: c :: d :: e :: f :: g :: h :: rest =>
      flags :: gsoType :: b :: a :: d :: c :: f :: e :: h :: g :: rest
    | short => short

/-- The packet as `receive_header` leaves it in the peer's buffer. -/
def rewritten (net : RxConfig) (buf : List UInt8) : List UInt8 :=
  if net.hasVnetHdr then
    let repaired := workAroundBrokenDhclient net buf
    if net.needsVnetHdrSwap then virtioNetHdrSwap net repaired else repaired
  else buf

/-- The `struct virtio_net_hdr` that the guest is given. -/
def vnetHdr (net : RxConfig) (buf : List UInt8) : List UInt8 :=
  if net.hasVnetHdr then (rewritten net buf).take sizeofVnetHdr
  else List.replicate sizeofVnetHdr 0

/-- Memory and the peer's buffer after `receive_header`. -/
def receiveHeader (net : RxConfig) (mem : Bytes) (sg : List IoVec) (buf : List UInt8) :
    Bytes × List UInt8 :=
  ((iovFromBuf mem sg 0 (vnetHdr net buf)).1, rewritten net buf)

def numBuffers (net : RxConfig) (count : Nat) : List UInt8 :=
  if net.guestBigEndian then [UInt8.ofNat (count / 256), UInt8.ofNat count]
  else [UInt8.ofNat count, UInt8.ofNat (count / 256)]

/-! ### The buffers -/

inductive RxError where
  | longChain
  /-- Reported to the guest unless the first element is missing. -/
  | emptyQueue
  | noInBuffers
  /-- The packet does not fit and buffers are not merged: the element is put back. -/
  | noRoom
deriving DecidableEq, Repr

def RxError.ret (error : RxError) (size : Nat) : Int :=
  match error with
  | .longChain | .noRoom => size
  | .emptyQueue | .noInBuffers => -1

/-- What one element has been given: memory, the peer's buffer and the place in it afterwards, and
the used length. -/
structure RxCopy where
  mem : Bytes
  buf : List UInt8
  offset : Nat
  total : Nat

/-- The header part of the loop's body, for the first element. -/
def headerInto (net : RxConfig) (hash : List UInt8) (mem : Bytes) (buf : List UInt8)
    (sg : List IoVec) : Bytes × List UInt8 :=
  let header := receiveHeader net mem sg buf
  if net.populateHash then ((iovFromBuf header.1 sg sizeofMrgRxbuf hash).1, header.2) else header

/-- The body of the loop, from the element's buffers on. -/
def rxCopy (net : RxConfig) (hash : List UInt8) (i offset : Nat) (mem : Bytes) (buf : List UInt8)
    (sg : List IoVec) : RxCopy :=
  if i = 0 then
    let header := headerInto net hash mem buf sg
    let copied := iovFromBuf header.1 sg net.guestHdrLen (header.2.drop net.hostHdrLen)
    ⟨copied.1, header.2, net.hostHdrLen + copied.2, net.guestHdrLen + copied.2⟩
  else
    let copied := iovFromBuf mem sg 0 (buf.drop offset)
    ⟨copied.1, buf, offset + copied.2, copied.2⟩

/-- What the loop ends with: `elems` and `lens`, and why it was left. -/
structure RxRun where
  mem : Bytes
  used : List (RxElement × Nat)
  error : Option RxError

/-- The loop of `virtio_net_receive_rcu`, over the elements that `virtqueue_pop` returns. -/
def rxLoop (net : RxConfig) (hash : List UInt8) :
    List RxElement → Nat → Nat → Bytes → List UInt8 → RxRun
  | [], i, offset, mem, buf =>
    if offset < buf.length then
      ⟨mem, [], if i = virtqueueMaxSize then RxError.longChain else RxError.emptyQueue⟩
    else ⟨mem, [], none⟩
  | elem :: rest, i, offset, mem, buf =>
    if offset < buf.length then
      if i = virtqueueMaxSize then ⟨mem, [], RxError.longChain⟩
      else if elem.inSg.length < 1 then ⟨mem, [], RxError.noInBuffers⟩
      else
        let copied := rxCopy net hash i offset mem buf elem.inSg
        if ¬net.mergeableRxBufs ∧ copied.offset < copied.buf.length then
          ⟨copied.mem, [], RxError.noRoom⟩
        else
          let later := rxLoop net hash rest (i + 1) copied.offset copied.mem copied.buf
          ⟨later.mem, (elem, copied.total) :: later.used, later.error⟩
    else ⟨mem, [], none⟩

/-- The bytes of `num_buffers` in the first element. -/
def mhdrSg (net : RxConfig) (used : List (RxElement × Nat)) : List IoVec :=
  match used with
  | [] => []
  | first :: _ =>
    if net.mergeableRxBufs then iovCopy virtqueueMaxSize first.1.inSg sizeofVnetHdr 2 else []

/-- Memory when `num_buffers` has been filled in. -/
def fillNumBuffers (net : RxConfig) (run : RxRun) : Bytes :=
  let mhdr := mhdrSg net run.used
  if mhdr.length ≠ 0 then (iovFromBuf run.mem mhdr 0 (numBuffers net run.used.length)).1
  else run.mem

/-- `virtio_net_has_buffers`, on a ring to which nothing is added. -/
def virtioNetHasBuffers (net : RxConfig) (ring : RxRing) (bufsize : Nat) : Bool :=
  if ring.elems.isEmpty || net.mergeableRxBufs then bufsize ≤ ringBytes ring.elems else true

/-- `flushed` has the elements of each `virtqueue_flush`. -/
structure RxResult where
  ret : Int
  mem : Bytes
  flushed : List (List (RxElement × Nat))
  error : Option RxError

def virtioNetReceiveRcu (net : RxConfig) (ring : RxRing) (mem : Bytes) (req : RxRequest net) :
    RxResult :=
  let size := req.buf.length
  if ¬req.canReceive then ⟨-1, mem, [], none⟩
  else if ¬virtioNetHasBuffers net ring (size + net.guestHdrLen - net.hostHdrLen) then
    ⟨0, mem, [], none⟩
  else if ¬net.receiveFilter req.buf then ⟨size, mem, [], none⟩
  else
    let run := rxLoop net req.hash ring.elems 0 0 mem req.buf
    match run.error with
    | some error => ⟨error.ret size, run.mem, [], some error⟩
    | none => ⟨size, fillNumBuffers net run, [run.used], none⟩

/-! ### Lengths -/

namespace RxConfig

variable (net : RxConfig)

theorem sizeofVnetHdr_le_guestHdrLen : sizeofVnetHdr ≤ net.guestHdrLen := by
  unfold guestHdrLen
  split_ifs <;> decide

theorem guestHdrLen_of_mergeable (mergeable : net.mergeableRxBufs = true) :
    sizeofMrgRxbuf ≤ net.guestHdrLen := by
  simp only [guestHdrLen, mergeable, if_true]
  split_ifs <;> decide

theorem guestHdrLen_of_populateHash (hash : net.populateHash = true) :
    net.guestHdrLen = sizeofV1Hash := by
  rw [populateHash, Bool.and_eq_true] at hash
  rw [guestHdrLen, if_pos hash.1, if_pos hash.2]

theorem sizeofVnetHdr_le_hostHdrLen (vnet : net.hasVnetHdr = true) :
    sizeofVnetHdr ≤ net.hostHdrLen := by
  have isLen := net.hostHdr
  rw [if_pos vnet] at isLen
  rcases List.mem_cons.mp isLen with isLen | isLen
  · exact Nat.le_of_eq isLen.symm
  · simp only [List.mem_cons, List.not_mem_nil, or_false, sizeofMrgRxbuf, sizeofV1Hash] at isLen
    unfold sizeofVnetHdr
    omega

end RxConfig

theorem workAroundBrokenDhclient_length (net : RxConfig) (buf : List UInt8) :
    (workAroundBrokenDhclient net buf).length = buf.length := by
  unfold workAroundBrokenDhclient
  split
  · rw [List.length_append, List.length_set, net.checksumLength, ← List.length_append,
      List.take_append_drop]
  · rfl

theorem virtioNetHdrSwap_length (net : RxConfig) (buf : List UInt8) :
    (virtioNetHdrSwap net buf).length = buf.length := by
  unfold virtioNetHdrSwap
  split
  · rfl
  · split <;> rfl

theorem virtioNetHdrSwap_drop (net : RxConfig) (buf : List UInt8) {n : Nat}
    (header : sizeofVnetHdr ≤ n) : (virtioNetHdrSwap net buf).drop n = buf.drop n := by
  obtain ⟨more, rfl⟩ := Nat.exists_eq_add_of_le header
  unfold virtioNetHdrSwap
  split
  · rfl
  · split
    · rw [← List.drop_drop, ← List.drop_drop]
      rfl
    · rfl

theorem rewritten_length (net : RxConfig) (buf : List UInt8) :
    (rewritten net buf).length = buf.length := by
  grind [rewritten, virtioNetHdrSwap_length, workAroundBrokenDhclient_length]

theorem vnetHdr_length {net : RxConfig} (req : RxRequest net) :
    (vnetHdr net req.buf).length = sizeofVnetHdr := by
  unfold vnetHdr
  split
  · next vnet =>
    rw [List.length_take, rewritten_length]
    exact Nat.min_eq_left (Nat.le_trans (net.sizeofVnetHdr_le_hostHdrLen vnet) req.hasHeader)
  · exact List.length_replicate

theorem numBuffers_length (net : RxConfig) (count : Nat) : (numBuffers net count).length = 2 := by
  unfold numBuffers
  split <;> rfl

/-- The bytes after the host header are the packet's own, or those with the checksum filled in. -/
theorem rewritten_drop {net : RxConfig} (req : RxRequest net) :
    (rewritten net req.buf).drop net.hostHdrLen =
      if net.hasVnetHdr ∧ isDhcpReply net req.buf then
        net.netChecksumCalculate (req.buf.drop net.hostHdrLen)
      else req.buf.drop net.hostHdrLen := by
  have repaired : (workAroundBrokenDhclient net req.buf).drop net.hostHdrLen =
      if isDhcpReply net req.buf then net.netChecksumCalculate (req.buf.drop net.hostHdrLen)
      else req.buf.drop net.hostHdrLen := by
    unfold workAroundBrokenDhclient
    split
    · apply List.drop_left'
      rw [List.length_set, List.length_take]
      exact Nat.min_eq_left req.hasHeader
    · rfl
  unfold rewritten
  by_cases vnet : net.hasVnetHdr = true
  · simp only [vnet, if_true, true_and]
    split
    · rw [virtioNetHdrSwap_drop _ _ (net.sizeofVnetHdr_le_hostHdrLen vnet), repaired]
    · exact repaired
  · rw [if_neg vnet, if_neg (fun both => vnet both.1)]

/-! ### One element -/

variable {net : RxConfig}

theorem headerInto_buf (hash : List UInt8) (mem : Bytes) (buf : List UInt8) (sg : List IoVec) :
    (headerInto net hash mem buf sg).2 = rewritten net buf := by
  unfold headerInto
  split <;> rfl

theorem rxCopy_later {i : Nat} (later : i ≠ 0) (hash : List UInt8) (offset : Nat) (mem : Bytes)
    (buf : List UInt8) (sg : List IoVec) :
    rxCopy net hash i offset mem buf sg =
      ⟨Bytes.storeAll mem (iovAddresses sg) (buf.drop offset), buf,
        offset + min (buf.length - offset) (iovSize sg),
        min (buf.length - offset) (iovSize sg)⟩ := by
  rw [rxCopy, if_neg later, iovFromBuf_eq, List.drop_zero, List.length_drop, Nat.sub_zero]

end QemuGzvm.VirtioNet
