import Switchboard.Session.Lifecycle

/-!
# Subscriptions to a session

The handles a session gives out: for messages, over its whole life, and for the cause of the
current cycle.

**After the end.** A handle works on its own hub, so it goes on after its cycle has ended and after
the session has been released.
-/

namespace Switchboard.Session

/-- A subscription to the causes of one cycle. -/
structure CauseHandle where
  cycle : Nat
  id : SubscriptionId
deriving DecidableEq, Repr

/-! ## Messages -/

/-- Subscribe to the messages with a buffer of `n`. -/
def subscribeMessages (s : Session) (n : Nat) : Session × SubscriptionId :=
  let (messages, id) := s.messages.subscribe n
  ({ s with messages }, id)

/-- Receive a message without waiting. -/
def tryReceiveMessage (s : Session) (id : SubscriptionId) : Session × Reception Message :=
  let reply := s.messages.tryReceive id
  (s.absorb reply, reply.result)

/-- Receive a message, waiting for it. -/
def receiveMessage (s : Session) (id : SubscriptionId) (call : Nat) :
    Session × Outcome (Option Message) :=
  let reply := s.messages.receive id call
  (s.absorb reply, reply.result)

/-- Cancel a subscription to the messages. -/
def cancelMessages (s : Session) (id : SubscriptionId) : Session :=
  s.absorb (s.messages.cancel id)

/-- Give up a subscription to the messages. -/
def abandonMessages (s : Session) (id : SubscriptionId) : Session :=
  s.absorb (s.messages.abandon id)

/-- Receive at most `fuel` messages without waiting, on top of those in `acc`, newest first. -/
def drainMessagesUpTo (id : SubscriptionId) :
    (fuel : Nat) → (acc : List Message) → Session → Session × Hub.Drained Message
  | 0, acc, s => (s, ⟨acc.reverse, false⟩)
  | fuel + 1, acc, s =>
    match s.tryReceiveMessage id with
    | (s, .value m) => drainMessagesUpTo id fuel (m :: acc) s
    | (s, .empty) => (s, ⟨acc.reverse, false⟩)
    | (s, .ended) => (s, ⟨acc.reverse, true⟩)

/-- Receive messages without waiting until nothing more comes. A publish that returns may start a
watch, whose session may end with one more message. -/
def drainMessages (s : Session) (id : SubscriptionId) : Session × Hub.Drained Message :=
  drainMessagesUpTo id (s.messages.backlog id + s.watches.length + 1) [] s

/-! ## Causes -/

/-- Subscribe to the cause of the current cycle with a buffer of `n`. -/
def subscribeCauses (s : Session) (n : Nat) : Session × CauseHandle :=
  let (hub, id) := s.cycle.disconnects.subscribe n
  ({ s with cycle := { s.cycle with disconnects := hub } }, ⟨s.cycle.number, id⟩)

/-- Work on the hub behind a handle. Its hub is kept with the cycle, so there always is one; a
handle of no cycle gets the answer `gone`. -/
def onCauses {β : Type} (s : Session) (handle : CauseHandle) (gone : β)
    (f : Hub Unit CauseReader Cause → Hub.Reply Unit CauseReader Cause β) : Session × β :=
  match s.cycle? handle.cycle with
  | none => (s, gone)
  | some c =>
    let reply := f c.disconnects
    let s := s.setCycle { c with disconnects := reply.hub }
    ((s.readCauses reply.received).settle, reply.result)

/-- Receive a cause without waiting. -/
def tryReceiveCause (s : Session) (handle : CauseHandle) : Session × Reception Cause :=
  s.onCauses handle .ended (·.tryReceive handle.id)

/-- Receive a cause, waiting for it. -/
def receiveCause (s : Session) (handle : CauseHandle) (call : Nat) :
    Session × Outcome (Option Cause) :=
  s.onCauses handle (.returned none) (·.receive handle.id (.call call))

/-- Receive causes without waiting until nothing more comes. -/
def drainCauses (s : Session) (handle : CauseHandle) : Session × Hub.Drained Cause :=
  s.onCauses handle ⟨[], true⟩ (·.drain handle.id)

/-- Cancel a subscription to a cause. -/
def cancelCauses (s : Session) (handle : CauseHandle) : Session :=
  (s.onCauses handle () (·.cancel handle.id)).1

/-- Give up a subscription to a cause. -/
def abandonCauses (s : Session) (handle : CauseHandle) : Session :=
  (s.onCauses handle () (·.abandon handle.id)).1

/-- Whether a receive waits on a handle. -/
def isWaitingForCause (s : Session) (handle : CauseHandle) : Bool :=
  (s.cycle? handle.cycle).any (·.disconnects.isWaiting handle.id)

end Switchboard.Session
