import QemuGzvm.Library.Transition
import Mathlib.Data.List.Basic

/-!
Contract: a net queue (`net/queue.c`) whose callbacks come back into it.

Owns:
- packets, the calls in progress (each waits for a callback, `deliver` or a `sent_cb`) and the
  queue's fields;
- the steps: a call of `qemu_net_queue_send` (`_send_iov`), `_flush` or `_purge`, from outside or
  from the callback that runs, and the return of that callback;
- the rule under which a purge is right, on the calls that a `sent_cb` makes.

A packet is known by the number it got when it was queued, so that a pointer to a packet that was
freed stays a pointer to that packet. What was queued, accepted, purged, called back and freed is
noted down.
-/

namespace QemuGzvm.Net

open QemuGzvm.Library

/-- `NetPacket`, without its data. -/
structure NetPacket (S : Type) where
  id : Nat
  sender : S
  /-- `sent_cb` is given. -/
  sentCb : Bool
deriving DecidableEq

/-- A call in progress, by the callback it waits for. -/
inductive QueueFrame (S : Type) where
  | sendDeliver (sender : S) (sentCb : Bool)
  | flushDeliver (packet : NetPacket S)
  | flushSent (packet : NetPacket S)
  /-- `qemu_net_queue_purge` in a `sent_cb`, with the packet it saved to go on with. -/
  | purgeSent (source : S) (packet : NetPacket S) (next : Option (NetPacket S))
deriving DecidableEq

namespace QueueFrame

variable {S : Type}

/-- The packet taken off the queue for `deliver`. -/
def inFlight : QueueFrame S → List (NetPacket S)
  | .flushDeliver packet => [packet]
  | _ => []

/-- The packet that left the queue, in its `sent_cb`. -/
def leaving : QueueFrame S → List (NetPacket S)
  | .flushSent packet => [packet]
  | .purgeSent _ packet _ => [packet]
  | _ => []

def cursor : QueueFrame S → Option (NetPacket S)
  | .purgeSent _ _ next => next
  | _ => none

def purges : QueueFrame S → Option S
  | .purgeSent source _ _ => some source
  | _ => none

def isDeliver : QueueFrame S → Bool
  | .sendDeliver _ _ => true
  | .flushDeliver _ => true
  | _ => false

end QueueFrame

/-- `NetQueue`, with the calls in progress, the innermost first. -/
structure QueueState (S : Type) where
  packets : List (NetPacket S)
  nqCount : Nat
  delivering : Bool
  stack : List (QueueFrame S)
  /-- A packet was read after it was freed. -/
  broken : Bool
  /-- The packets that were queued, the first one first; those that a flush had accepted; purged;
  whose `sent_cb` was called; freed. -/
  queued : List (NetPacket S)
  accepted : List (NetPacket S)
  purged : List (NetPacket S)
  calledBack : List (NetPacket S)
  freed : List (NetPacket S)
  /-- How often `qemu_net_queue_send` returned 0, and how often it dropped the packet. -/
  refusals : Nat
  drops : Nat

inductive QueueStep (S : Type) where
  /-- `qemu_net_queue_send`, with what `qemu_can_send_packet` says. -/
  | send (sender : S) (sentCb canSend : Bool)
  | flush
  | purge (source : S)
  | delivered (ret : Int)
  | sent
deriving DecidableEq

namespace QueueState

variable {S : Type} [DecidableEq S]

def nqMaxlen : Nat := 10000

def start : QueueState S where
  packets := []
  nqCount := 0
  delivering := false
  stack := []
  broken := false
  queued := []
  accepted := []
  purged := []
  calledBack := []
  freed := []
  refusals := 0
  drops := 0

def countUp (count : Nat) : Nat := (count + 1) % 2 ^ 32
def countDown (count : Nat) : Nat := (count + (2 ^ 32 - 1)) % 2 ^ 32

/-- `qemu_net_queue_append`, after which `qemu_net_queue_send` returns 0. -/
def append (s : QueueState S) (sender : S) (sentCb : Bool) : QueueState S :=
  if nqMaxlen ≤ s.nqCount ∧ sentCb = false then
    { s with drops := s.drops + 1, refusals := s.refusals + 1 }
  else
    { s with
      packets := s.packets ++ [⟨s.queued.length, sender, sentCb⟩]
      nqCount := countUp s.nqCount
      queued := s.queued ++ [⟨s.queued.length, sender, sentCb⟩]
      refusals := s.refusals + 1 }

def take (s : QueueState S) (packet : NetPacket S) (rest : List (NetPacket S)) : QueueState S :=
  { s with
    packets := rest
    nqCount := countDown s.nqCount
    delivering := true
    stack := .flushDeliver packet :: s.stack }

/-- The loop of `qemu_net_queue_flush`, up to `deliver` or to its end. -/
def flushLoop (s : QueueState S) : QueueState S :=
  match s.packets with
  | [] => s
  | packet :: rest => s.take packet rest

def putBack (s : QueueState S) (packet : NetPacket S) (stack : List (QueueFrame S)) :
    QueueState S :=
  { s with
    packets := packet :: s.packets
    nqCount := countUp s.nqCount
    delivering := false
    stack := stack }

def acceptWithCb (s : QueueState S) (packet : NetPacket S) (stack : List (QueueFrame S)) :
    QueueState S :=
  { s with
    delivering := false
    stack := .flushSent packet :: stack
    accepted := s.accepted ++ [packet]
    calledBack := packet :: s.calledBack }

def acceptWithoutCb (s : QueueState S) (packet : NetPacket S) (stack : List (QueueFrame S)) :
    QueueState S :=
  { s with
    delivering := false
    stack := stack
    accepted := s.accepted ++ [packet]
    freed := packet :: s.freed }

def release (s : QueueState S) (packet : NetPacket S) (stack : List (QueueFrame S)) :
    QueueState S :=
  { s with stack := stack, freed := packet :: s.freed }

def purgeWithCb (s : QueueState S) (source : S) (packet : NetPacket S)
    (next : Option (NetPacket S)) : QueueState S :=
  { s with
    packets := s.packets.erase packet
    nqCount := countDown s.nqCount
    stack := .purgeSent source packet next :: s.stack
    purged := packet :: s.purged
    calledBack := packet :: s.calledBack }

def purgeWithoutCb (s : QueueState S) (packet : NetPacket S) : QueueState S :=
  { s with
    packets := s.packets.erase packet
    nqCount := countDown s.nqCount
    purged := packet :: s.purged
    freed := packet :: s.freed }

/-- The loop of `qemu_net_queue_purge` over what is left of the queue, up to a `sent_cb` or to its
end. -/
def purgeLoop (source : S) : QueueState S → List (NetPacket S) → QueueState S
  | s, [] => s
  | s, packet :: rest =>
    if packet.sender = source then
      if packet.sentCb then s.purgeWithCb source packet rest.head?
      else purgeLoop source (s.purgeWithoutCb packet) rest
    else purgeLoop source s rest

def purgeFrom (s : QueueState S) (source : S) : Option (NetPacket S) → QueueState S
  | none => s
  | some next =>
    if next ∈ s.freed then { s with broken := true }
    else s.purgeLoop source (s.packets.dropWhile fun packet => packet ≠ next)

/-- What `qemu_net_queue_flush` keeps of the value: an `int`. -/
def flushRet (ret : Int) : Int := ret % 2 ^ 32

def delivered (s : QueueState S) (ret : Int) : Option (QueueState S) :=
  match s.stack with
  | .sendDeliver sender sentCb :: stack =>
    if ret = 0 then some ({ s with delivering := false, stack := stack }.append sender sentCb)
    else some { s with delivering := false, stack := stack }.flushLoop
  | .flushDeliver packet :: stack =>
    if flushRet ret = 0 then
      -- what `deliver` says is the value that was not cut down
      if ret = 0 then some (s.putBack packet stack)
      else some { s.putBack packet stack with accepted := s.accepted ++ [packet] }
    else if packet.sentCb then some (s.acceptWithCb packet stack)
    else some (s.acceptWithoutCb packet stack).flushLoop
  | _ => none

def sent (s : QueueState S) : Option (QueueState S) :=
  match s.stack with
  | .flushSent packet :: stack => some (s.release packet stack).flushLoop
  | .purgeSent source packet next :: stack =>
    some ((s.release packet stack).purgeFrom source next)
  | _ => none

/-- Nothing is said about what comes after a read of a freed packet. -/
def next (s : QueueState S) (step : QueueStep S) : Option (QueueState S) :=
  if s.broken then none
  else
    match step with
    | .send sender sentCb canSend =>
      if s.delivering = true ∨ canSend = false then some (s.append sender sentCb)
      else some { s with delivering := true, stack := .sendDeliver sender sentCb :: s.stack }
    | .flush => some (if s.delivering then s else s.flushLoop)
    | .purge source => some (s.purgeLoop source s.packets)
    | .delivered ret => s.delivered ret
    | .sent => s.sent

/-- The packets on the queue or taken off it for `deliver`, of which there is one more to come. -/
def inFlight (s : QueueState S) : List (NetPacket S) := s.stack.flatMap QueueFrame.inFlight

def leaving (s : QueueState S) : List (NetPacket S) := s.stack.flatMap QueueFrame.leaving

def HasRoom (s : QueueState S) : Prop := s.packets.length + s.inFlight.length + 1 < 2 ^ 32

/-- No purge goes on with this packet. -/
def NotNext (s : QueueState S) (packet : NetPacket S) : Prop :=
  ∀ frame ∈ s.stack, packet ∉ frame.cursor

/-- What the innermost call asks of the value `deliver` returns. -/
def DeliverRule (s : QueueState S) (ret : Int) : QueueFrame S → Prop
  | .sendDeliver _ _ => ret = 0 → s.HasRoom
  | .flushDeliver packet => ret ≠ 0 → flushRet ret ≠ 0 ∧ s.NotNext packet
  | _ => True

/-- The rule: the packet that a purge goes on with is not taken from it by what its `sent_cb`
does, neither accepted nor purged; `deliver` returns to a flush no value that an `int` turns into
0; and the count has room. -/
def Rule (s : QueueState S) : QueueStep S → Prop
  | .send _ _ canSend => s.delivering = true ∨ canSend = false → s.HasRoom
  | .flush => True
  | .purge source => ∀ frame ∈ s.stack, ∀ packet ∈ frame.cursor, packet.sender ≠ source
  | .delivered ret => ∀ frame ∈ s.stack.head?, s.DeliverRule ret frame
  | .sent => True

instance (s : QueueState S) (ret : Int) (frame : QueueFrame S) :
    Decidable (s.DeliverRule ret frame) :=
  match frame with
  | .sendDeliver _ _ => inferInstanceAs (Decidable (_ → _ < _))
  | .flushDeliver packet =>
    inferInstanceAs (Decidable (_ → _ ∧ ∀ frame ∈ s.stack, packet ∉ frame.cursor))
  | .flushSent _ => .isTrue trivial
  | .purgeSent _ _ _ => .isTrue trivial

instance (s : QueueState S) (step : QueueStep S) : Decidable (s.Rule step) :=
  match step with
  | .send _ _ _ => inferInstanceAs (Decidable (_ ∨ _ → _ < _))
  | .flush => .isTrue trivial
  | .purge _ => inferInstanceAs (Decidable (∀ frame ∈ s.stack, ∀ packet ∈ frame.cursor, _))
  | .delivered _ => inferInstanceAs (Decidable (∀ frame ∈ s.stack.head?, _))
  | .sent => .isTrue trivial

end QueueState

def queueSystem (S : Type) [DecidableEq S] : LabelledSystem (QueueState S) (QueueStep S) :=
  .ofNext .start QueueState.next

end QemuGzvm.Net
