import QemuGzvm.VirtioBlk.Request
import QemuGzvm.Library.Transition

/-!
Contract: a virtio-blk request whose I/O fails and is tried again (`virtio_blk_rw_complete`,
`virtio_blk_handle_rw_error`, `virtio_blk_dma_restart_bh`, `virtio_blk_reset`).

Owns:
- the life of one request from its first handling to its completion;
- each handling after the first reads the element that the one before it left, cut once more;
- the request stays the same exactly if there is nothing to cut, or what is read after each cut
  says the same.

The guest leaves the buffers alone while the device has them.
-/

namespace QemuGzvm.VirtioBlk

open QemuGzvm.Library QemuGzvm.Util

/-! ### The life of a request -/

inductive ErrorAction where
  | report
  | ignore
  | stop
deriving DecidableEq, Repr

inductive BlkPhase where
  | inFlight
  | stopped
  | completed
  | detached
  /-- With one of the handlers that is left out. -/
  | elsewhere
deriving DecidableEq, Repr

structure Handling where
  outcome : Outcome
  type : Option UInt32
  inLen : Nat
deriving DecidableEq, Repr

structure BlkLife where
  req : VirtIOBlockReq
  phase : BlkPhase
  handled : List Handling
  completion : Option Completion

inductive LifeStep where
  /-- `virtio_blk_rw_complete` and its like, with the action for the error if there is one. -/
  | complete (error : Option ErrorAction)
  | restart
  | reset
deriving DecidableEq, Repr

def Outcome.phase : Outcome → BlkPhase
  | .failed _ => .detached
  | .answered _ => .completed
  | .issued _ => .inFlight
  | .elsewhere => .elsewhere

section Life

variable (dev : BlkDevice) (mem : Bytes)

def BlkLife.handle (req : VirtIOBlockReq) (before : List Handling) : BlkLife :=
  let result := virtioBlkHandleRequest dev mem req
  { req := result.2.2
    phase := result.1.phase
    handled := ⟨result.1, result.2.1, result.2.2.inLen⟩ :: before
    completion :=
      match result.1 with
      | .answered status => some (virtioBlkReqComplete result.2.2 status)
      | _ => none }

def BlkLife.start (elem : BlkElement) : BlkLife :=
  BlkLife.handle dev mem (virtioBlkInitRequest elem) []

def BlkLife.complete (life : BlkLife) (status : BlkStatus) : BlkLife :=
  { life with
    phase := .completed
    completion := some (virtioBlkReqComplete life.req status) }

def BlkLife.next (life : BlkLife) : LifeStep → Option BlkLife
  | .complete error =>
    if life.phase = .inFlight then
      match error with
      | some .stop => some { life with phase := .stopped }
      | some .report => some (life.complete .ioerr)
      | some .ignore => some (life.complete .ok)
      | none => some (life.complete .ok)
    else none
  | .restart =>
    if life.phase = .stopped then some (BlkLife.handle dev mem life.req life.handled) else none
  | .reset => if life.phase = .stopped then some { life with phase := .detached } else none

def lifeSystem (elem : BlkElement) : LabelledSystem BlkLife LifeStep :=
  .ofNext (BlkLife.start dev mem elem) (BlkLife.next dev mem)

def LifeReached (elem : BlkElement) (life : BlkLife) : Prop :=
  (lifeSystem dev mem elem).ReachedBy (fun _ _ => True) life

/-- What a first handling of the element makes of it. -/
def handlingOf (elem : BlkElement) : Handling :=
  let result := virtioBlkHandleRequest dev mem (virtioBlkInitRequest elem)
  ⟨result.1, result.2.1, result.2.2.inLen⟩

/-- Every time the request was handled it was issued as it was first, and the status is in the
last of the in bytes. -/
structure BlkLife.Unchanged (elem : BlkElement) (life : BlkLife) : Prop where
  handled : ∀ handling ∈ life.handled, handling = handlingOf dev mem elem
  status : ∀ completion, life.completion = some completion →
    (iovAddresses elem.inSg).getLast? = some completion.addr

end Life

/-! ### One handling -/

/-- The out entries and the in entries as a handling leaves them. -/
def takeHeader (outSg : List IoVec) : List IoVec := (iovDiscardFront outSg sizeofOuthdr).whole

def takeStatus (inSg : List IoVec) : List IoVec := (iovDiscardBack inSg sizeofInhdr).whole

def BlkElement.handled (elem : BlkElement) : BlkElement :=
  ⟨takeHeader elem.outSg, takeStatus elem.inSg⟩

variable {dev : BlkDevice} {mem : Bytes} {elem : BlkElement} {req : VirtIOBlockReq}

/-- Header and status are there. -/
structure Readable (dev : BlkDevice) (mem : Bytes) (elem : BlkElement) (hdr : BlkOuthdr)
    (last : IoVec) : Prop where
  header : readOuthdr dev mem elem.outSg = some hdr
  ends : elem.inSg.getLast? = some last
  status : sizeofInhdr ≤ last.len

def dispatchOf (dev : BlkDevice) (mem : Bytes) (elem : BlkElement) (hdr : BlkOuthdr) : Outcome :=
  dispatch dev mem hdr (iovDiscardFront elem.outSg sizeofOuthdr).rest
    (iovDiscardBack elem.inSg sizeofInhdr).rest

/-- A handling of the element issues I/O. -/
structure Issues (dev : BlkDevice) (mem : Bytes) (elem : BlkElement) (hdr : BlkOuthdr)
    (last : IoVec) (io : BlkIo) : Prop extends Readable dev mem elem hdr last where
  issued : dispatchOf dev mem elem hdr = .issued io

variable {hdr : BlkOuthdr} {last : IoVec} {io : BlkIo} {before : List Handling} {later : BlkElement}
  {life : BlkLife}

theorem readOuthdr_size {outSg : List IoVec} (header : readOuthdr dev mem outSg = some hdr) :
    sizeofOuthdr ≤ iovSize outSg := by
  grind [readOuthdr, iovToBuf_length]

theorem handleRequest_readable (readable : Readable dev mem req.elem hdr last) :
    virtioBlkHandleRequest dev mem req =
      (dispatchOf dev mem req.elem hdr, some hdr.type,
        (req.parsed last).afterwards (dispatchOf dev mem req.elem hdr)) := by
  have nonempty : req.elem.outSg.isEmpty = false := by
    have size := readOuthdr_size readable.header
    cases isOut : req.elem.outSg with
    | nil =>
      rw [isOut] at size
      exact absurd size (by decide)
    | cons _ _ => rfl
  unfold virtioBlkHandleRequest
  rw [nonempty, readable.ends, readable.header]
  dsimp only
  rw [if_neg (Nat.not_lt.mpr readable.status)]
  rfl

theorem handleRequest_issued (issued : (virtioBlkHandleRequest dev mem req).1 = .issued io) :
    ∃ hdr last, Issues dev mem req.elem hdr last io := by
  have result := issued
  unfold virtioBlkHandleRequest at issued
  split at issued
  · next last _ isLast =>
    split at issued
    · cases issued
    · next hdr isHdr =>
      split at issued
      · cases issued
      · next status =>
        have readable : Readable dev mem req.elem hdr last :=
          ⟨isHdr, isLast, Nat.not_lt.mp status⟩
        rw [handleRequest_readable readable] at result
        exact ⟨hdr, last, readable, result⟩
  · cases issued

theorem handleRequest_issued_eq (issues : Issues dev mem req.elem hdr last io) :
    virtioBlkHandleRequest dev mem req = (.issued io, some hdr.type, req.parsed last) := by
  rw [handleRequest_readable issues.toReadable, issues.issued]
  rfl

theorem handlingOf_issued (issues : Issues dev mem elem hdr last io) :
    handlingOf dev mem elem = ⟨.issued io, some hdr.type, iovSize elem.inSg⟩ := by
  have result : virtioBlkHandleRequest dev mem (virtioBlkInitRequest elem) =
      (.issued io, some hdr.type, (virtioBlkInitRequest elem).parsed last) :=
    handleRequest_issued_eq issues
  rw [handlingOf, result]
  rfl

theorem handlingOf_cases (issued : (handlingOf dev mem elem).outcome = .issued io) :
    ∃ hdr last, Issues dev mem elem hdr last io :=
  handleRequest_issued issued

theorem handling_eq_of_issued (issued : (virtioBlkHandleRequest dev mem req).1 = .issued io) :
    (⟨(virtioBlkHandleRequest dev mem req).1, (virtioBlkHandleRequest dev mem req).2.1,
      (virtioBlkHandleRequest dev mem req).2.2.inLen⟩ : Handling) = handlingOf dev mem req.elem := by
  obtain ⟨hdr, last, issues⟩ := handleRequest_issued issued
  rw [handlingOf_issued issues, handleRequest_issued_eq issues]
  rfl

/-! ### All handlings -/

theorem handle_again
    (issued : (handlingOf dev mem elem).outcome = .issued io)
    (unchanged : (BlkLife.handle dev mem req before).Unchanged dev mem elem) :
    (BlkLife.handle dev mem req before).phase = .inFlight ∧
      (BlkLife.handle dev mem req before).req.elem = req.elem.handled ∧
      handlingOf dev mem req.elem = handlingOf dev mem elem := by
  have same := unchanged.handled _ List.mem_cons_self
  have outcome : (virtioBlkHandleRequest dev mem req).1 = .issued io :=
    (congrArg Handling.outcome same).trans issued
  refine ⟨?_, ?_, ?_⟩
  · exact congrArg Outcome.phase outcome
  · obtain ⟨hdr, last, issues⟩ := handleRequest_issued outcome
    exact congrArg (fun result => result.2.2.elem) (handleRequest_issued_eq issues)
  · rw [← handling_eq_of_issued outcome]
    exact same

/-- If the request is the same each time, the elements that are left say the same. -/
theorem handled_of_unchanged (issued : (handlingOf dev mem elem).outcome = .issued io)
    (unchanged : ∀ life, LifeReached dev mem elem life → life.Unchanged dev mem elem) (n : Nat) :
    handlingOf dev mem (BlkElement.handled^[n] elem) = handlingOf dev mem elem := by
  -- The state after `n` times stop and restart.
  have runs : ∃ life, LifeReached dev mem elem life ∧ life.phase = .inFlight ∧
      life.req.elem = BlkElement.handled^[n + 1] elem ∧
      handlingOf dev mem (BlkElement.handled^[n] elem) = handlingOf dev mem elem := by
    induction n with
    | zero =>
      have reached : LifeReached dev mem elem (BlkLife.start dev mem elem) := .start rfl
      obtain ⟨phase, isElem, -⟩ := handle_again issued (unchanged _ reached)
      exact ⟨_, reached, phase, isElem, rfl⟩
    | succ n ih =>
      obtain ⟨life, reached, phase, isElem, -⟩ := ih
      have stopped : LifeReached dev mem elem { life with phase := .stopped } :=
        reached.step (.complete (some .stop)) trivial (if_pos phase)
      have restarted : LifeReached dev mem elem (BlkLife.handle dev mem life.req life.handled) :=
        stopped.step .restart trivial rfl
      obtain ⟨phase, after, same⟩ := handle_again issued (unchanged _ restarted)
      rw [isElem] at after same
      refine ⟨_, restarted, phase, ?_, same⟩
      rw [after, ← Function.iterate_succ_apply' BlkElement.handled]
  obtain ⟨_, _, _, _, same⟩ := runs
  exact same

theorem lastAddress {inSg : List IoVec} (ends : inSg.getLast? = some last)
    (status : sizeofInhdr ≤ last.len) :
    (iovAddresses inSg).getLast? = some (last.base + last.len - sizeofInhdr) := by
  obtain ⟨before, rfl⟩ := List.getLast?_eq_some_iff.mp ends
  have some : last.len ≠ 0 := Nat.ne_of_gt status
  have addresses : last.addresses.getLast? = Option.some (last.base + last.len - sizeofInhdr) := by
    rw [IoVec.addresses, List.getLast?_range', if_neg some, sizeofInhdr]
  rw [iovAddresses, List.flatMap_append, List.getLast?_append]
  simp [addresses]

theorem handled_inSg (kept : takeStatus elem.inSg = elem.inSg) (n : Nat) :
    (BlkElement.handled^[n] elem).inSg = elem.inSg := by
  induction n with
  | zero => rfl
  | succ n ih =>
    rw [Function.iterate_succ_apply']
    change takeStatus (BlkElement.handled^[n] elem).inSg = elem.inSg
    rw [ih, kept]

structure LifeInv (dev : BlkDevice) (mem : Bytes) (elem : BlkElement) (life : BlkLife) : Prop where
  elems : ∃ n, life.req.elem = BlkElement.handled^[n] elem
  addr : (iovAddresses elem.inSg).getLast? = some life.req.inAddr
  unchanged : life.Unchanged dev mem elem

section Kept

variable (issued : (handlingOf dev mem elem).outcome = .issued io)
  (kept : takeStatus elem.inSg = elem.inSg)
  (same : ∀ n, handlingOf dev mem (BlkElement.handled^[n] elem) = handlingOf dev mem elem)

include issued kept same

theorem LifeInv.handle {n : Nat}
    (isElem : req.elem = BlkElement.handled^[n] elem)
    (earlier : ∀ handling ∈ before, handling = handlingOf dev mem elem) :
    LifeInv dev mem elem (BlkLife.handle dev mem req before) := by
  have again : (handlingOf dev mem req.elem).outcome = .issued io := by
    rw [isElem, same n]
    exact issued
  obtain ⟨hdr, last, issues⟩ := handlingOf_cases again
  have result : virtioBlkHandleRequest dev mem req =
      (.issued io, some hdr.type, req.parsed last) := handleRequest_issued_eq issues
  have inSg : req.elem.inSg = elem.inSg := by
    rw [isElem]
    exact handled_inSg kept n
  unfold BlkLife.handle
  rw [result]
  constructor
  · refine ⟨n + 1, ?_⟩
    rw [Function.iterate_succ_apply', ← isElem]
    rfl
  · rw [← inSg]
    exact lastAddress issues.ends issues.status
  · constructor
    · intro handling member
      rcases List.mem_cons.mp member with rfl | older
      · rw [← same n, ← isElem, handlingOf_issued issues]
        rfl
      · exact earlier handling older
    · exact nofun

theorem LifeInv.next {after : BlkLife} {step : LifeStep} (inv : LifeInv dev mem elem life)
    (taken : life.next dev mem step = some after) : LifeInv dev mem elem after := by
  obtain ⟨⟨n, isElem⟩, addr, unchanged⟩ := inv
  have completes : ∀ status, LifeInv dev mem elem (life.complete status) := by
    intro status
    refine ⟨⟨n, isElem⟩, addr, unchanged.handled, ?_⟩
    intro completion isCompletion
    cases isCompletion
    exact addr
  cases step with
  | complete error =>
    unfold BlkLife.next at taken
    dsimp only at taken
    split at taken
    · split at taken <;> cases taken
      · exact ⟨⟨n, isElem⟩, addr, unchanged.handled, unchanged.status⟩
      · exact completes .ioerr
      · exact completes .ok
      · exact completes .ok
    · cases taken
  | restart =>
    rw [BlkLife.next] at taken
    split at taken
    · cases taken
      exact LifeInv.handle issued kept same isElem unchanged.handled
    · cases taken
  | reset =>
    rw [BlkLife.next] at taken
    split at taken
    · cases taken
      exact ⟨⟨n, isElem⟩, addr, unchanged.handled, unchanged.status⟩
    · cases taken

/-- Conversely, the request is the same each time if the elements say the same and the in entries
are not cut. -/
theorem unchanged_of_handled (reached : LifeReached dev mem elem life) :
    life.Unchanged dev mem elem := by
  refine (reached.invariant (LifeInv dev mem elem) ?_ ?_).unchanged
  · rintro life rfl
    exact LifeInv.handle issued kept same (n := 0) rfl nofun
  · exact fun _ _ _ inv _ taken => inv.next issued kept same taken

end Kept

/-! ### What is cut -/

/-- The status has entries of its own. -/
def StatusApart (elem : BlkElement) : Prop :=
  ∃ count, iovSize (elem.inSg.drop count) = sizeofInhdr

/-- The header has entries of its own. -/
def HeaderApart (elem : BlkElement) : Prop :=
  ∃ count, iovSize (elem.outSg.take count) = sizeofOuthdr

/-- Reads and flushes: the out bytes after the header are not used. -/
def outUnused (type : UInt32) : Bool :=
  match requestType type with
  | .readWrite => !isWrite type
  | .flush => true
  | _ => false

/-- The out bytes that are taken for the header, each time the header is cut off once more, have
the same type in them, and for reads the same sector. -/
def HeaderRepeats (dev : BlkDevice) (mem : Bytes) (elem : BlkElement) : Prop :=
  ∃ hdr, readOuthdr dev mem elem.outSg = some hdr ∧ outUnused hdr.type = true ∧
    ∀ n, ∃ later, readOuthdr dev mem (takeHeader^[n] elem.outSg) = some later ∧
      later.type = hdr.type ∧ (requestType hdr.type = .readWrite → later.sector = hdr.sector)

/-- Parsing the element again gives the same request. -/
structure KeepsElement (dev : BlkDevice) (mem : Bytes) (elem : BlkElement) : Prop where
  status : StatusApart elem
  header : HeaderApart elem ∨ HeaderRepeats dev mem elem

theorem handled_outSg (elem : BlkElement) (n : Nat) :
    (BlkElement.handled^[n] elem).outSg = takeHeader^[n] elem.outSg := by
  induction n with
  | zero => rfl
  | succ n ih =>
    rw [Function.iterate_succ_apply', Function.iterate_succ_apply', ← ih]
    rfl

section Cut

section

variable (readable : Readable dev mem elem hdr last)
include readable

theorem Readable.inSize :
    sizeofInhdr ≤ iovSize elem.inSg := by
  obtain ⟨before, isIn⟩ := List.getLast?_eq_some_iff.mp readable.ends
  rw [isIn, iovSize_append, iovSize_cons, iovSize_nil]
  exact Nat.le_trans readable.status (by omega)

theorem takeStatus_eq_iff :
    takeStatus elem.inSg = elem.inSg ↔ StatusApart elem :=
  iovDiscardBack_whole_eq_iff readable.inSize

theorem takeHeader_eq_iff :
    takeHeader elem.outSg = elem.outSg ↔ HeaderApart elem :=
  discardLoop_whole_eq_iff shortens_dropFront (readOuthdr_size readable.header)

end

/-- A request that uses its out bytes is issued with all of them. -/
theorem outSize_of_issued (used : outUnused hdr.type = false)
    (issued : dispatchOf dev mem elem hdr = .issued io) :
    (requestType hdr.type = .readWrite ∧
      ∃ sector, io = .readWrite true sector (iovDiscardFront elem.outSg sizeofOuthdr).rest) ∨
      requestType hdr.type = .discardWriteZeroes ∧
        iovSize (iovDiscardFront elem.outSg sizeofOuthdr).rest = sizeofDwzHdr := by
  unfold dispatchOf dispatch at issued
  unfold outUnused at used
  split at issued
  · grind
  · next isType =>
    rw [isType] at used
    cases used
  · next isType =>
    refine Or.inr ⟨isType, ?_⟩
    split at issued
    · cases issued
    · next small =>
      split at issued
      · cases issued
      · next whole =>
        rw [ne_eq, not_not, iovToBuf_length] at whole
        simp only [Bool.or_eq_true, decide_eq_true_eq, not_or] at small
        omega
  · cases issued
  · split at issued
    · cases issued
    · cases issued

variable {laterHdr : BlkOuthdr}

/-- One that does not use them depends on type and sector, and on the in entries. -/
theorem dispatch_unused (unused : outUnused hdr.type = true)
    (inSg : later.inSg = elem.inSg) (type : laterHdr.type = hdr.type)
    (sector : requestType hdr.type = .readWrite → laterHdr.sector = hdr.sector) :
    dispatchOf dev mem later laterHdr = dispatchOf dev mem elem hdr := by
  unfold outUnused at unused
  unfold dispatchOf dispatch
  rw [type, inSg]
  split at unused
  · grind
  · next isType => rw [isType]
  · cases unused

/-- The type, and for reads the sector, can be seen from what is issued. -/
theorem hdr_of_issued (issued : dispatchOf dev mem elem hdr = .issued io)
    (again : dispatchOf dev mem later laterHdr = .issued io) (type : laterHdr.type = hdr.type)
    (isType : requestType hdr.type = .readWrite) : laterHdr.sector = hdr.sector := by
  grind [dispatchOf, dispatch]

/-- If the header shares an entry and the out bytes are used, the second handling differs. -/
theorem changed_of_used (used : outUnused hdr.type = false)
    (issues : Issues dev mem elem hdr last io) (shared : ¬HeaderApart elem) {laterLast : IoVec}
    (again : Issues dev mem elem.handled laterHdr laterLast io) : laterHdr.type ≠ hdr.type := by
  intro type
  have fewer : iovSize (takeHeader elem.outSg) < iovSize elem.outSg :=
    discardLoop_whole_lt shortens_dropFront (mt (takeHeader_eq_iff issues.toReadable).mp shared)
  have enough : sizeofOuthdr ≤ iovSize (takeHeader elem.outSg) := readOuthdr_size again.header
  have first := iovDiscardFront_rest_size elem.outSg sizeofOuthdr
  have second := iovDiscardFront_rest_size (takeHeader elem.outSg) sizeofOuthdr
  have usedAgain : outUnused laterHdr.type = false := by rw [type, used]
  rcases outSize_of_issued used issues.issued with ⟨isType, sector, isIo⟩ | ⟨isType, size⟩
  · rcases outSize_of_issued usedAgain again.issued with ⟨-, sector', isIo'⟩ | ⟨isType', -⟩
    · rw [isIo] at isIo'
      have sizes := congrArg iovSize (BlkIo.readWrite.inj isIo').2.2
      change _ = iovSize (iovDiscardFront (takeHeader elem.outSg) sizeofOuthdr).rest at sizes
      omega
    · rw [type, isType] at isType'
      cases isType'
  · rcases outSize_of_issued usedAgain again.issued with ⟨isType', -⟩ | ⟨-, size'⟩
    · rw [type, isType] at isType'
      cases isType'
    · change iovSize (iovDiscardFront (takeHeader elem.outSg) sizeofOuthdr).rest = _ at size'
      omega

end Cut

/-! ### Restarted unchanged -/

/-- A request that is stopped and restarted any number of times is issued each time as it was at
first, and answered in the last of its in bytes, exactly if header and status have entries of
their own, or the header that is found after each cut says the same. -/
theorem restart_unchanged_iff {io : BlkIo}
    (issued : (virtioBlkHandleRequest dev mem (virtioBlkInitRequest elem)).1 = .issued io) :
    (∀ life, LifeReached dev mem elem life → life.Unchanged dev mem elem) ↔
      KeepsElement dev mem elem := by
  have first : (handlingOf dev mem elem).outcome = .issued io := issued
  obtain ⟨hdr, last, issues⟩ := handlingOf_cases first
  have readable := issues.toReadable
  have isHandling := handlingOf_issued issues
  constructor
  · intro unchanged
    have same := handled_of_unchanged first unchanged
    -- What each later handling reads.
    have reads : ∀ n, ∃ later laterLast,
        Issues dev mem (BlkElement.handled^[n] elem) later laterLast io ∧ later.type = hdr.type ∧
        iovSize (BlkElement.handled^[n] elem).inSg = iovSize elem.inSg := by
      intro n
      have outcome : (handlingOf dev mem (BlkElement.handled^[n] elem)).outcome = .issued io := by
        rw [same n]
        exact first
      obtain ⟨later, laterLast, again⟩ := handlingOf_cases outcome
      have handling := (handlingOf_issued again).symm.trans ((same n).trans isHandling)
      obtain ⟨-, isType, isLen⟩ := Handling.mk.inj handling
      exact ⟨later, laterLast, again, Option.some.inj isType, isLen⟩
    constructor
    · obtain ⟨_, _, _, _, size⟩ := reads 1
      apply (takeStatus_eq_iff readable).mp
      by_contra cut
      exact Nat.ne_of_lt (iovDiscardBack_whole_lt cut) size
    · by_cases apart : HeaderApart elem
      · exact Or.inl apart
      · right
        cases used : outUnused hdr.type with
        | false =>
          obtain ⟨later, laterLast, again, type, -⟩ := reads 1
          exact absurd type (changed_of_used used issues apart again)
        | true =>
          refine ⟨hdr, readable.header, used, ?_⟩
          intro n
          obtain ⟨later, laterLast, again, type, -⟩ := reads n
          refine ⟨later, ?_, type, hdr_of_issued issues.issued again.issued type⟩
          rw [← handled_outSg]
          exact again.header
  · intro keeps life reached
    have kept := (takeStatus_eq_iff readable).mpr keeps.status
    refine unchanged_of_handled first kept ?_ reached
    intro n
    rcases keeps.header with apart | ⟨hdr', isHdr', unused, repeats⟩
    · have fixed : elem.handled = elem := by
        change BlkElement.mk _ _ = elem
        rw [kept, (takeHeader_eq_iff readable).mpr apart]
      rw [Function.iterate_fixed fixed]
    · rw [readable.header] at isHdr'
      cases isHdr'
      obtain ⟨later, isLater, type, sector⟩ := repeats n
      have inSg := handled_inSg kept n
      have again : Issues dev mem (BlkElement.handled^[n] elem) later last io := by
        refine ⟨⟨?_, ?_, readable.status⟩,
          (dispatch_unused unused inSg type sector).trans issues.issued⟩
        · rw [handled_outSg]
          exact isLater
        · rw [inSg]
          exact readable.ends
      rw [handlingOf_issued again, isHandling, type, inSg]

/-! ### A write of one sector -/

def sectorDevice : BlkDevice where
  bigEndian := false
  logicalBlockSize := 512
  totalSectors := 8
  maxDiscardSectors := 8
  maxWriteZeroesSectors := 8
  handlesUnknown := fun _ => false
  discards := by decide
  writesZeroes := by decide

/-- A header for a write to sector 0, and zeroes as data. -/
def sectorMem : Bytes := fun addr => if addr = 0 then 1 else 0

def sharedElem : BlkElement := ⟨[⟨0, 528⟩], [⟨1000, 1⟩]⟩

/-- The same with a descriptor for each. -/
def apartElem : BlkElement := ⟨[⟨0, 16⟩, ⟨16, 512⟩], [⟨1000, 1⟩]⟩

theorem sharedElem_first : handlingOf sectorDevice sectorMem sharedElem =
    ⟨.issued (.readWrite true 0 [⟨16, 512⟩]), some 1, 1⟩ := by
  decide +kernel

/-- The write is restarted as a read, since the first bytes of the data are taken for its header,
and is then answered without having been done. -/
theorem restart_misreads_header :
    (virtioBlkHandleRequest sectorDevice sectorMem (virtioBlkInitRequest sharedElem)).1 =
        .issued (.readWrite true 0 [⟨16, 512⟩]) ∧
      ¬∀ life, LifeReached sectorDevice sectorMem sharedElem life →
        life.Unchanged sectorDevice sectorMem sharedElem := by
  have first : (handlingOf sectorDevice sectorMem sharedElem).outcome =
      .issued (.readWrite true 0 [⟨16, 512⟩]) := congrArg Handling.outcome sharedElem_first
  refine ⟨first, ?_⟩
  intro unchanged
  have same : handlingOf sectorDevice sectorMem sharedElem.handled =
      handlingOf sectorDevice sectorMem sharedElem := handled_of_unchanged first unchanged 1
  cases same

theorem restart_unchanged_iff_apart :
    (virtioBlkHandleRequest sectorDevice sectorMem (virtioBlkInitRequest apartElem)).1 =
        .issued (.readWrite true 0 [⟨16, 512⟩]) ∧
      ∀ life, LifeReached sectorDevice sectorMem apartElem life →
        life.Unchanged sectorDevice sectorMem apartElem := by
  have issued : (virtioBlkHandleRequest sectorDevice sectorMem
      (virtioBlkInitRequest apartElem)).1 = .issued (.readWrite true 0 [⟨16, 512⟩]) := by
    decide +kernel
  exact ⟨issued, (restart_unchanged_iff issued).mpr ⟨⟨0, rfl⟩, Or.inl ⟨1, rfl⟩⟩⟩

end QemuGzvm.VirtioBlk
