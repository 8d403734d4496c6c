import QemuGzvm.Util.Iov

/-!
Contract: how a virtio-blk request is read from its buffers (`virtio_blk_handle_request`,
`virtio_blk_handle_discard_write_zeroes`, `virtio_blk_req_complete` of `hw/block/virtio-blk.c`).

Owns:
- the header, the request types and the checks that lead to I/O, to an answer, or to an error;
- the entries of the element that are cut for the header and for the status, and the records to
  undo that.

Left out: SCSI, serial number and zone requests beyond their types, since their completion never
stops the machine; accounting; traces.
-/

namespace QemuGzvm.VirtioBlk

open QemuGzvm.Library QemuGzvm.Util

/-! ### Device and requests -/

def bdrvRequestMaxSectors : Nat := (2 ^ 31 - 1) / 2 ^ 9

/-- What request handling reads of the device. The limits are checked when it is realized. -/
structure BlkDevice where
  /-- `virtio_access_is_big_endian` -/
  bigEndian : Bool
  logicalBlockSize : Nat
  /-- `blk_get_geometry` -/
  totalSectors : Nat
  maxDiscardSectors : Nat
  maxWriteZeroesSectors : Nat
  /-- `handle_unknown_request` of the device's class, if it has one. -/
  handlesUnknown : UInt32 → Bool
  discards : maxDiscardSectors ≤ bdrvRequestMaxSectors
  writesZeroes : maxWriteZeroesSectors ≤ bdrvRequestMaxSectors

def BlkDevice.sectorMask (dev : BlkDevice) : Nat := dev.logicalBlockSize / 512 - 1

structure BlkElement where
  outSg : List IoVec
  inSg : List IoVec
deriving DecidableEq, Repr

/-- `VirtIOBlockReq`, as far as handling it changes it. -/
structure VirtIOBlockReq where
  elem : BlkElement
  inhdrUndo : Option (Nat × IoVec)
  outhdrUndo : Option (Nat × IoVec)
  /-- Where `in` points to: the address of the status byte. -/
  inAddr : Nat
  inLen : Nat
deriving DecidableEq, Repr

def virtioBlkInitRequest (elem : BlkElement) : VirtIOBlockReq := ⟨elem, none, none, 0, 0⟩

/-- `sizeof(struct virtio_blk_outhdr)` and `sizeof(struct virtio_blk_discard_write_zeroes)` -/
def sizeofOuthdr : Nat := 16

def sizeofDwzHdr : Nat := 16

def sizeofInhdr : Nat := 1

/-! ### Reading values -/

def loadLe : List UInt8 → Nat
  | [] => 0
  | byte :: rest => byte.toNat + 256 * loadLe rest

/-- `virtio_ldl_p` and `virtio_ldq_p` -/
def virtioLoad (dev : BlkDevice) (bytes : List UInt8) : Nat :=
  if dev.bigEndian then loadLe bytes.reverse else loadLe bytes

/-- `struct virtio_blk_outhdr`, without `ioprio`, which nothing reads. -/
structure BlkOuthdr where
  type : UInt32
  sector : Nat
deriving DecidableEq, Repr

def readOuthdr (dev : BlkDevice) (mem : Bytes) (outSg : List IoVec) : Option BlkOuthdr :=
  let bytes := iovToBuf mem outSg 0 sizeofOuthdr
  if bytes.length = sizeofOuthdr then
    some ⟨UInt32.ofNat (virtioLoad dev (bytes.take 4)), virtioLoad dev (bytes.drop 8)⟩
  else none

/-! ### Types -/

def blkTOut : UInt32 := 1

def blkTBarrier : UInt32 := 0x80000000

def blkTWriteZeroes : UInt32 := 13

inductive RequestType where
  | readWrite
  | flush
  | discardWriteZeroes
  /-- SCSI, serial number and zone requests. -/
  | other
  | unknown
deriving DecidableEq, Repr

/-- The `switch` over the type without `VIRTIO_BLK_T_OUT` and `VIRTIO_BLK_T_BARRIER`. -/
def requestType (type : UInt32) : RequestType :=
  match (type &&& ~~~(blkTOut ||| blkTBarrier)).toNat with
  | 0 => .readWrite
  | 4 => .flush
  | 10 | 12 => .discardWriteZeroes
  | 2 | 8 | 14 | 16 | 18 | 20 | 22 | 24 | 26 => .other
  | _ => .unknown

def isWrite (type : UInt32) : Bool := type &&& blkTOut != 0

def isWriteZeroes (type : UInt32) : Bool := type &&& ~~~blkTBarrier == blkTWriteZeroes

/-! ### What comes of a request -/

/-- I/O that is handed to the backend, or to the buffer for merging. -/
inductive BlkIo where
  | readWrite (isWrite : Bool) (sectorNum : Nat) (qiov : List IoVec)
  | flush
  | writeZeroes (sector bytes : Nat) (mayUnmap : Bool)
  | discard (sector bytes : Nat)
deriving DecidableEq, Repr

inductive BlkStatus where
  | ok
  | ioerr
  | unsupp
deriving DecidableEq, Repr

inductive HandleError where
  | missingHeaders
  | outhdrTooShort
  | inhdrTooShort
  | dwzTooShort
deriving DecidableEq, Repr

def HandleError.text : HandleError → String
  | .missingHeaders => "virtio-blk missing headers"
  | .outhdrTooShort => "virtio-blk request outhdr too short"
  | .inhdrTooShort => "virtio-blk request inhdr too short"
  | .dwzTooShort => "virtio-blk discard/write_zeroes header too short"

inductive Outcome where
  /-- `virtio_error` and a return value of -1. -/
  | failed (error : HandleError)
  | answered (status : BlkStatus)
  | issued (io : BlkIo)
  /-- Left to a handler whose completion answers the request in any case. -/
  | elsewhere
deriving DecidableEq, Repr

/-! ### Checks -/

def virtioBlkSectRangeOk (dev : BlkDevice) (sector size : Nat) : Bool :=
  let nbSectors := size / 512
  if bdrvRequestMaxSectors < nbSectors then false
  else if sector &&& dev.sectorMask ≠ 0 then false
  else if size % dev.logicalBlockSize ≠ 0 then false
  else decide (sector ≤ dev.totalSectors ∧ nbSectors ≤ dev.totalSectors - sector)

def virtioBlkHandleDiscardWriteZeroes (dev : BlkDevice) (hdr : List UInt8)
    (isWriteZeroes : Bool) : Outcome :=
  let sector := virtioLoad dev (hdr.take 8)
  let numSectors := virtioLoad dev ((hdr.drop 8).take 4)
  let flags := virtioLoad dev (hdr.drop 12)
  let maxSectors := if isWriteZeroes then dev.maxWriteZeroesSectors else dev.maxDiscardSectors
  if maxSectors < numSectors then .answered .ioerr
  else if !virtioBlkSectRangeOk dev sector (numSectors * 512) then .answered .ioerr
  else if 1 < flags then .answered .unsupp
  else if isWriteZeroes then .issued (.writeZeroes sector (numSectors * 512) (flags == 1))
  else if flags = 1 then .answered .unsupp
  else .issued (.discard sector (numSectors * 512))

/-- The part of `virtio_blk_handle_request` after header and status are split off. -/
def dispatch (dev : BlkDevice) (mem : Bytes) (hdr : BlkOuthdr) (outIov inIov : List IoVec) :
    Outcome :=
  match requestType hdr.type with
  | .readWrite =>
    let qiov := if isWrite hdr.type then outIov else inIov
    if virtioBlkSectRangeOk dev hdr.sector (iovSize qiov) then
      .issued (.readWrite (isWrite hdr.type) hdr.sector qiov)
    else .answered .ioerr
  | .flush => .issued .flush
  | .discardWriteZeroes =>
    if !isWrite hdr.type || decide (sizeofDwzHdr < iovSize outIov) then .answered .unsupp
    else if (iovToBuf mem outIov 0 sizeofDwzHdr).length ≠ sizeofDwzHdr then
      .failed .dwzTooShort
    else virtioBlkHandleDiscardWriteZeroes dev (iovToBuf mem outIov 0 sizeofDwzHdr)
      (isWriteZeroes hdr.type)
  | .other => .elsewhere
  | .unknown => if dev.handlesUnknown hdr.type then .elsewhere else .answered .unsupp

/-- `iov_discard_undo` of both records. -/
def VirtIOBlockReq.undone (req : VirtIOBlockReq) : BlkElement :=
  ⟨iovDiscardUndo req.outhdrUndo req.elem.outSg, iovDiscardUndo req.inhdrUndo req.elem.inSg⟩

/-- The request with its header and its status split off, the status in the last entry `last`. -/
def VirtIOBlockReq.parsed (req : VirtIOBlockReq) (last : IoVec) : VirtIOBlockReq :=
  { elem := ⟨(iovDiscardFront req.elem.outSg sizeofOuthdr).whole,
      (iovDiscardBack req.elem.inSg sizeofInhdr).whole⟩
    inhdrUndo := (iovDiscardBack req.elem.inSg sizeofInhdr).undo
    outhdrUndo := (iovDiscardFront req.elem.outSg sizeofOuthdr).undo
    inAddr := last.base + last.len - sizeofInhdr
    inLen := iovSize req.elem.inSg }

/-- The request after a handling that has split off header and status: an error undoes that. -/
def VirtIOBlockReq.afterwards (parsed : VirtIOBlockReq) : Outcome → VirtIOBlockReq
  | .failed _ => { parsed with elem := parsed.undone }
  | _ => parsed

/-- `virtio_blk_handle_request`: what comes of the request, its type once that is known, and the
request as it is left. -/
def virtioBlkHandleRequest (dev : BlkDevice) (mem : Bytes) (req : VirtIOBlockReq) :
    Outcome × Option UInt32 × VirtIOBlockReq :=
  match req.elem.outSg.isEmpty, req.elem.inSg.getLast? with
  | false, some last =>
    match readOuthdr dev mem req.elem.outSg with
    | none => (.failed .outhdrTooShort, none, req)
    | some hdr =>
      if last.len < sizeofInhdr then
        let front := iovDiscardFront req.elem.outSg sizeofOuthdr
        (.failed .inhdrTooShort, none,
          { req with
            elem := { req.elem with outSg := iovDiscardUndo front.undo front.whole }
            outhdrUndo := front.undo })
      else
        let outcome := dispatch dev mem hdr (iovDiscardFront req.elem.outSg sizeofOuthdr).rest
          (iovDiscardBack req.elem.inSg sizeofInhdr).rest
        (outcome, some hdr.type, (req.parsed last).afterwards outcome)
  | _, _ => (.failed .missingHeaders, none, req)

/-- `virtio_blk_req_complete`: where the status is stored, and what is pushed. -/
structure Completion where
  status : BlkStatus
  addr : Nat
  len : Nat
  elem : BlkElement
deriving DecidableEq, Repr

def virtioBlkReqComplete (req : VirtIOBlockReq) (status : BlkStatus) : Completion :=
  ⟨status, req.inAddr, req.inLen, req.undone⟩

end QemuGzvm.VirtioBlk
