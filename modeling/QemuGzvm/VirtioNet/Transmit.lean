import QemuGzvm.Library.Transition
import QemuGzvm.Util.Iov

/-!
Contract: the transmit queue of virtio-net with a bottom half (`virtio_net_handle_tx_bh`,
`virtio_net_tx_bh`, `virtio_net_flush_tx`, `virtio_net_tx_complete`, `virtio_net_set_status`,
`virtio_net_set_link_status` of `hw/net/virtio-net.c`).

Owns:
- the state of one queue, the device and the guest's side of the ring, and the steps that each of
  them takes;
- what makes an element invalid, and what is done with one.

The guest runs beside the device: it may add buffers between any two looks that a handler takes
at the ring, and checks some time later whether the device wants to be told. Entries of the ring
are counted from the start of the device and never wrap. Loads and stores of the two sides are
seen in one order. The queue is neither handled by vhost nor one of several.
-/

namespace QemuGzvm.VirtioNet

open QemuGzvm.Library QemuGzvm.Util

/-! ### Elements -/

/-- The part of `VirtIONet` that transmitting reads and nothing here changes. -/
structure TxConfig where
  /-- `n->tx_burst`, an `int32_t` that the user may set. -/
  txBurst : Int
  /-- `VIRTIO_RING_F_EVENT_IDX` -/
  eventIdx : Bool
  needsVnetHdrSwap : Bool
  hostHdrLen : Nat
  guestHdrLen : Nat
  hostLe : hostHdrLen ≤ guestHdrLen

def sizeofVnetHdr : Nat := 10

def virtqueueMaxSize : Nat := 1024

def sizeMax : Nat := 2 ^ 64 - 1

inductive TxError where
  | headerNotInFirst
  | headerIncorrect
  | headerInvalid
  | nothingToSend
deriving DecidableEq, Repr

def TxError.text : TxError → String
  | .headerNotInFirst => "virtio-net header not in first element"
  | .headerIncorrect => "virtio-net header incorrect"
  | .headerInvalid => "virtio-net header is invalid"
  | .nothingToSend => "virtio-net nothing to send"

inductive TxVerdict where
  | detach (error : TxError)
  /-- Pushed without being sent. -/
  | drop
  | send
deriving DecidableEq, Repr

/-- The check of the headers when the host has others than the guest. -/
def checkHeaders (net : TxConfig) (outSg : List IoVec) : TxVerdict :=
  if net.hostHdrLen = net.guestHdrLen then .send
  else if iovSize outSg < net.guestHdrLen then .detach .headerInvalid
  else
    let header := iovCopy virtqueueMaxSize outSg 0 net.hostHdrLen
    let rest := iovCopy (virtqueueMaxSize - header.length) outSg net.guestHdrLen sizeMax
    if header.length + rest.length < 1 then .detach .nothingToSend else .send

/-- What `virtio_net_flush_tx` does with an element, from its out entries. The swapped header is
a local variable: its address is not one of the guest's, and is left at 0. -/
def checkElement (net : TxConfig) (outSg : List IoVec) : TxVerdict :=
  if outSg.length < 1 then .detach .headerNotInFirst
  else if net.needsVnetHdrSwap then
    if iovSize outSg < sizeofVnetHdr then .detach .headerIncorrect
    else
      let copied := iovCopy virtqueueMaxSize outSg sizeofVnetHdr sizeMax
      if copied.length = virtqueueMaxSize then .drop
      else checkHeaders net (⟨0, sizeofVnetHdr⟩ :: copied)
  else checkHeaders net outSg

/-! ### State -/

inductive FlushFor where
  | bhFirst
  | bhSecond
  | complete
deriving DecidableEq, Repr

/-- Where the device is. It looks at the ring in `flush` and in `drop`. -/
inductive TxPc where
  | idle
  | flush (caller : FlushFor) (numPackets : Nat)
  /-- In `virtio_net_tx_bh`, before notifications are enabled again. -/
  | rearm
  /-- In `virtqueue_drop_all`. -/
  | drop
  | aborted
deriving DecidableEq, Repr

structure TxState where
  pc : TxPc
  /-- The entries that the guest has made available, and those it has checked whether to kick. -/
  avail : Nat
  checked : Nat
  /-- `last_avail_idx` -/
  popped : Nat
  /-- `vq->notification` and the flag in the used ring. -/
  notification : Bool
  /-- The event index in the used ring. -/
  availEvent : Nat
  kicked : Bool
  txWaiting : Bool
  scheduled : Bool
  /-- `async_tx.elem`, by its number. -/
  asyncTx : Option Nat
  pushed : List Nat
  vmRunning : Bool
  linkUp : Bool
  driverOk : Bool
  broken : Bool
deriving DecidableEq, Repr

/-- A started device with an empty queue. -/
def TxState.start : TxState where
  pc := .idle
  avail := 0
  checked := 0
  popped := 0
  notification := true
  availEvent := 0
  kicked := false
  txWaiting := false
  scheduled := false
  asyncTx := none
  pushed := []
  vmRunning := true
  linkUp := true
  driverOk := true
  broken := false

inductive TxStep where
  /-- The guest makes a buffer available, and checks whether to kick for those it has made. -/
  | guestAdd
  | guestCheck
  /-- A kick that nothing asked for, as when ioeventfds are started. -/
  | kick
  /-- `virtio_net_handle_tx_bh` for a kick. -/
  | handleTx
  | runBh
  /-- The peer is done with the element in `async_tx`. -/
  | txComplete
  | setRunning (running : Bool)
  | setLink (up : Bool)
  /-- The next step of a handler, with the out entries of the element if one is popped and
  whether the peer takes it at once. -/
  | device (outSg : List IoVec) (sent : Bool)

namespace TxState

variable (net : TxConfig) (s : TxState)

/-! ### Parts of steps -/

/-- `virtio_queue_set_notification`, with `vring_set_avail_event`. -/
def setNotification (enable : Bool) : TxState :=
  { s with
    notification := enable
    availEvent := if enable then s.avail else s.availEvent }

def pop : TxState :=
  { s with
    popped := s.popped + 1
    availEvent := if s.notification then s.popped + 1 else s.availEvent }

def push (elem : Nat) : TxState := { s with pushed := elem :: s.pushed }

def goTo (pc : TxPc) : TxState := { s with pc := pc }

/-- `qemu_bh_schedule` with `tx_waiting = 1`. -/
def schedule : TxState := { s with scheduled := true, txWaiting := true }

/-- Whether the guest has to kick for the entries it has not checked. -/
def needsKick : Bool :=
  if net.eventIdx then decide (s.checked ≤ s.availEvent ∧ s.availEvent < s.avail)
  else s.notification && decide (s.checked < s.avail)

inductive FlushRet where
  | packets (num : Nat)
  | ebusy
  | einval
deriving DecidableEq, Repr

def FlushRet.value : FlushRet → Int
  | .packets num => num
  | .ebusy => -16
  | .einval => -22

/-- What the callers of `virtio_net_flush_tx` do with its return value. -/
def flushed (caller : FlushFor) (ret : FlushRet) : TxState :=
  match caller with
  | .bhFirst =>
    match ret with
    | .packets num => if net.txBurst ≤ num then (s.schedule).goTo .idle else s.goTo .rearm
    | _ => s.goTo .idle
  | .bhSecond =>
    match ret with
    | .packets num =>
      if 0 < num then ((s.setNotification false).schedule).goTo .idle else s.goTo .idle
    | _ => s.goTo .idle
  | .complete =>
    if net.txBurst ≤ ret.value then ((s.setNotification false).schedule).goTo .idle
    else s.goTo .idle

/-- A packet that is through: one more, up to the burst. -/
def onward (caller : FlushFor) (numPackets : Nat) : TxState :=
  if net.txBurst ≤ (numPackets + 1 : Nat) then s.flushed net caller (.packets (numPackets + 1))
  else s.goTo (.flush caller (numPackets + 1))

/-- A turn of the loop in `virtio_net_flush_tx`, and before the first one its checks. -/
def flushTurn (caller : FlushFor) (numPackets : Nat) (outSg : List IoVec) (sent : Bool) :
    TxState :=
  if !s.driverOk then s.flushed net caller (.packets 0)
  else if numPackets = 0 ∧ s.asyncTx.isSome then
    (s.setNotification false).flushed net caller (.packets 0)
  else if s.popped = s.avail then s.flushed net caller (.packets numPackets)
  else
    match checkElement net outSg with
    | .detach _ => { s.pop with broken := true }.flushed net caller .einval
    | .drop => (s.pop.push s.popped).onward net caller numPackets
    | .send =>
      if sent then (s.pop.push s.popped).onward net caller numPackets
      else
        { s.pop.setNotification false with asyncTx := some s.popped }.flushed net caller .ebusy

def dropTurn : TxState :=
  if s.popped = s.avail then s.goTo .idle else s.pop.push s.popped

/-- `virtio_net_set_status` with the status as it is. -/
def setStatus : TxState :=
  if !s.txWaiting then s
  else if s.driverOk && s.linkUp && s.vmRunning then { s with scheduled := true }
  else if !s.linkUp && s.driverOk && s.vmRunning then
    (({ s with scheduled := false, txWaiting := false }).setNotification true).goTo .drop
  else { s with scheduled := false }

def handleTxBh : TxState :=
  if !s.linkUp then s.goTo .drop
  else if s.txWaiting then s
  else if !s.vmRunning then { s with txWaiting := true }
  else (s.setNotification false).schedule

def txBh : TxState :=
  if !s.vmRunning then if s.txWaiting then s else s.goTo .aborted
  else if !s.driverOk then { s with txWaiting := false }
  else { s with txWaiting := false }.goTo (.flush .bhFirst 0)

def txComplete (elem : Nat) : TxState :=
  (({ s.push elem with asyncTx := none }).setNotification true).goTo (.flush .complete 0)

/-- The next state, or none if the step cannot be taken. A broken device does nothing more. -/
def next (step : TxStep) : Option TxState :=
  if s.broken then none
  else
    match step with
    | .guestAdd => some { s with avail := s.avail + 1 }
    | .guestCheck => some { s with kicked := s.kicked || s.needsKick net, checked := s.avail }
    | .kick => some { s with kicked := true }
    | .device outSg sent =>
      match s.pc with
      | .flush caller numPackets => some (s.flushTurn net caller numPackets outSg sent)
      | .rearm => some ((s.setNotification true).goTo (.flush .bhSecond 0))
      | .drop => some s.dropTurn
      | _ => none
    | .handleTx =>
      if s.pc = .idle ∧ s.kicked then some { s with kicked := false }.handleTxBh else none
    | .runBh =>
      if s.pc = .idle ∧ s.scheduled then some { s with scheduled := false }.txBh else none
    | .txComplete =>
      match s.pc, s.asyncTx with
      | .idle, some elem => some (s.txComplete elem)
      | _, _ => none
    | .setRunning running =>
      if s.pc = .idle then some { s with vmRunning := running }.setStatus else none
    | .setLink up => if s.pc = .idle then some { s with linkUp := up }.setStatus else none

end TxState

def txSystem (net : TxConfig) : LabelledSystem TxState TxStep :=
  .ofNext TxState.start (TxState.next net)

def TxReached (net : TxConfig) (s : TxState) : Prop :=
  (txSystem net).ReachedBy (fun _ _ => True) s

end QemuGzvm.VirtioNet
