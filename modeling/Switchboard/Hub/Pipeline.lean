import Switchboard.Buffer
import Switchboard.Queue

/-!
# Delivery pipelines

The way of a value from a hub to the holder of one subscription.

**The stages.** A value is stored in the subscriber's *buffer*, a worker takes it into its *hand*
and sends it down a bounded *channel*, and the holder receives it from there. The worker acts
whenever it can, so between two operations the pipeline is settled: there is a value in the hand
only if the channel is full, and one in the buffer only if the hand is not empty.

**Waiting.** A publish that finds the buffer full is parked on the pipeline; a receive that finds
nothing is parked on the holder's side. Parked publishes are let in one by one, the longest
waiting first.

**The end.** Shutting the buffer ends the pipeline once the worker has passed on what it still
gets: `retire` lets everything through, `cancel` discards what is in the buffer and keeps the hand
and the channel.

Publishes on their way are values of a type `π`, receivers are named by a type `ρ`.
-/

namespace Switchboard

/-- The largest number of values a channel holds, whatever buffer was asked for. -/
def maxChannel : Nat := 65536

/-- The buffer for a subscriber without needs of its own. -/
def defaultBuffer : Nat := 64

/-- The stages between a hub and the holder of one subscription. -/
structure Pipeline (π ρ α : Type) where
  /-- The capacity of the channel. -/
  room : Nat
  channel : Fifo α
  hand : Option α
  buffer : Buffer α
  /-- The publishes waiting for room, each with its value, in order of arrival. -/
  waiting : Fifo (π × α)
  /-- The receive that waits for a value. -/
  receiver : Option ρ

/-- What a holder gets when it does not wait. -/
inductive Reception (α : Type) where
  /-- The oldest value that has arrived. -/
  | value (v : α)
  /-- Nothing has arrived, and more may come. -/
  | empty
  /-- Nothing has arrived, and nothing will. -/
  | ended
deriving DecidableEq, Repr

namespace Pipeline

variable {π ρ α : Type}

/-- An empty pipeline for a subscriber who asked for a buffer of `n` values. A request of zero
counts as one. -/
def new (n : Nat) : Pipeline π ρ α :=
  ⟨min (max n 1) maxChannel, ∅, none, .new n, ∅, none⟩

/-- The values that have been stored and not yet received, oldest first. -/
def unread (p : Pipeline π ρ α) : List α :=
  p.channel.toList ++ p.hand.toList ++ p.buffer.items.toList

/-- The number of unread values. -/
def unreadCount (p : Pipeline π ρ α) : Nat :=
  p.channel.size + (if p.hand.isSome then 1 else 0) + p.buffer.size

/-- The number of unread values with which the pipeline is full. -/
def capacity (p : Pipeline π ρ α) : Nat := p.room + 1 + p.buffer.capacity

/-- Whether the buffer takes values, that is, whether the subscription is registered. -/
def isOpen (p : Pipeline π ρ α) : Bool := !p.buffer.closed

/-- Whether the worker has nothing left to pass on and will get nothing more. -/
def hasEnded (p : Pipeline π ρ α) : Bool :=
  p.buffer.closed && p.buffer.items.isEmpty && p.hand.isNone

/-! ## The worker -/

/-- The worker takes the oldest value of the buffer into its empty hand. -/
def take (p : Pipeline π ρ α) : Pipeline π ρ α :=
  match p.hand, p.buffer.pop? with
  | none, some (v, buffer) => { p with hand := some v, buffer }
  | _, _ => p

/-- The worker sends the value in its hand, if the channel has room. -/
def send (p : Pipeline π ρ α) : Pipeline π ρ α :=
  match p.hand with
  | some v =>
    if p.channel.size < p.room then { p with hand := none, channel := p.channel.push v } else p
  | none => p

/-- The worker goes as far as it can after one value came in or one went out: it fills its hand,
empties it, and fills it again. -/
def advance (p : Pipeline π ρ α) : Pipeline π ρ α := p.take.send.take

/-! ## Parked calls -/

/-- Answer the receive that waits, if there is a value for it or the pipeline has ended. -/
def serve (p : Pipeline π ρ α) : Pipeline π ρ α × List (ρ × Option α) :=
  match p.receiver with
  | none => (p, [])
  | some caller =>
    match p.channel.pop? with
    | some (v, channel) => ({ p with channel, receiver := none }, [(caller, some v)])
    | none => if p.hasEnded then ({ p with receiver := none }, [(caller, none)]) else (p, [])

/-- Let in the publish that has waited longest, if the buffer has room. -/
def letIn (p : Pipeline π ρ α) : Pipeline π ρ α × Option π :=
  match p.waiting.pop? with
  | some ((publication, v), waiting) =>
    if p.buffer.hasRoom then
      ({ p with buffer := p.buffer.add v, waiting }, some publication)
    else (p, none)
  | none => (p, none)

/-! ## The operations -/

/-- Store a value that the buffer has room for, and answer a receive that waits for it. -/
def store (p : Pipeline π ρ α) (v : α) : Pipeline π ρ α × List (ρ × Option α) :=
  serve (advance { p with buffer := p.buffer.add v })

/-- Park a publish behind the others. -/
def park (p : Pipeline π ρ α) (publication : π) (v : α) : Pipeline π ρ α :=
  { p with waiting := p.waiting.push (publication, v) }

/-- Receive without waiting. A value that leaves the channel makes room for the worker, and at
most one parked publish is let in. -/
def tryReceive (p : Pipeline π ρ α) : Pipeline π ρ α × Reception α × Option π :=
  match p.channel.pop? with
  | some (v, channel) =>
    let (p', publication) := letIn (advance { p with channel })
    (p', .value v, publication)
  | none => (p, if p.hasEnded then .ended else .empty, none)

/-- The publishes parked on a pipeline, in order of arrival. -/
def parked (p : Pipeline π ρ α) : List π := p.waiting.toList.map (·.1)

/-- Refuse further values and let everything stored go through. The parked publishes are handed
back; a receive that waits on an empty pipeline is answered with nothing. -/
def retire (p : Pipeline π ρ α) : Pipeline π ρ α × List (ρ × Option α) × List π :=
  let (p', received) := serve { p with buffer := p.buffer.retire, waiting := ∅ }
  (p', received, p.parked)

/-- Refuse further values and discard the buffer. The hand and the channel keep what they hold. -/
def cancel (p : Pipeline π ρ α) : Pipeline π ρ α × List (ρ × Option α) × List π :=
  let (p', received) := serve { p with buffer := p.buffer.close, waiting := ∅ }
  (p', received, p.parked)

end Pipeline

end Switchboard
