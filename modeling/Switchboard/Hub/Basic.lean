import Switchboard.Hub.Policy
import Switchboard.Hub.Pipeline
import Switchboard.Text.Quoted

/-!
# Broadcast hubs

A point at which values are published to any number of subscribers, each with a pipeline of its
own.

**Publishing.** A publish takes the list of the subscriptions registered at that moment and visits
them one after another. With the reliable policy it waits at a full buffer; with the lossy policy
that subscriber misses the value. It returns the number of buffers that took the value. The order
of the visits is free: `targets` puts the subscriptions of a given list first.

**Parked publishes.** A publish that waits is parked on the pipeline of one target and carries the
rest of its way in a `Publication`. When that pipeline lets it in, or is shut, it goes on to the
targets ahead, where it may park again. A single call may publish several values in a row; the
ones that are left travel with it.

**Leaving.** `cancel` unregisters a subscription and discards its buffer. `abandon` is the holder
going away, which cancels and forgets the pipeline. `close` unregisters everyone and discards
nothing. A hub whose owner is gone (`disown`) closes as soon as no publish is under way in it.

**Closing.** `close` shuts every pipeline before the publishes parked on them go on, so these find no
open target. Where the queues are shut one after another and publishes run beside that, one that the
first of them turns away might still be stored by the next, which is not shut yet. It is a choice
between outcomes of a race: it decides how many buffers such a publish reaches at last, and touches
neither what is stored already nor the order in which it is delivered.

Callers of publishes are named by a type `π`, those of receives by a type `ρ`.
-/

namespace Switchboard

/-- The name of a subscription within its hub. They count from one; zero names a handle that was
given out by a closed hub and has nothing behind it. -/
abbrev SubscriptionId := Nat

/-- A publish under way: the value being delivered, the targets it has still to visit, the number
of buffers that took the value so far, and the values the same call publishes afterwards. -/
structure Publication (π α : Type) where
  caller : π
  order : List SubscriptionId
  value : α
  ahead : List SubscriptionId
  accepted : Nat
  later : List α

/-- A publish point and the pipelines of the subscriptions whose handles are held, oldest first. -/
structure Hub (π ρ α : Type) where
  label : String
  policy : Policy
  lastId : SubscriptionId
  /-- No publish or subscription is possible any more. -/
  closed : Bool
  /-- The owner still has the hub. -/
  owned : Bool
  /-- The publishes begun while the hub was open. -/
  published : Nat
  /-- The values that lagging subscribers missed. -/
  dropped : Nat
  pipelines : List (SubscriptionId × Pipeline (Publication π α) ρ α)

namespace Hub

variable {π ρ α β γ : Type}

/-- The result of an operation: the hub after it, what the call came to, and the parked receives
and publishes that returned, in order. -/
structure Reply (π ρ α β : Type) where
  hub : Hub π ρ α
  result : β
  received : List (ρ × Option α)
  returned : List (π × Nat)

/-- An open hub without subscriptions. -/
def new (label : String) (policy : Policy) : Hub π ρ α :=
  ⟨label, policy, 0, false, true, 0, 0, []⟩

/-- The pipeline behind a handle. -/
def pipeline? (h : Hub π ρ α) (id : SubscriptionId) :
    Option (Pipeline (Publication π α) ρ α) :=
  h.pipelines.lookup id

/-- Put a changed pipeline in its place. -/
def setPipeline (h : Hub π ρ α) (id : SubscriptionId)
    (p : Pipeline (Publication π α) ρ α) : Hub π ρ α :=
  { h with pipelines := h.pipelines.map fun e => if e.1 == id then (id, p) else e }

/-- The registered subscriptions, oldest first. -/
def registered (h : Hub π ρ α) : List SubscriptionId :=
  (h.pipelines.filter (·.2.isOpen)).map (·.1)

/-- The number of registered subscriptions. -/
def subscriberCount (h : Hub π ρ α) : Nat := h.registered.length

/-- The publishes parked anywhere in the hub. -/
def parkedPublications (h : Hub π ρ α) : List (Publication π α) :=
  h.pipelines.flatMap (·.2.parked)

/-- The order in which a publish visits the registered subscriptions: those in `order` first. -/
def targets (h : Hub π ρ α) (order : List SubscriptionId) : List SubscriptionId :=
  let ids := h.registered
  (order.filter (ids.contains ·)).eraseDups ++ ids.filter (!order.contains ·)

/-- How a hub is shown. -/
def describe (h : Hub π ρ α) : String :=
  Text.record "BroadcastHub" [("label", Text.quoted h.label), ("policy", h.policy.title)]

/-! ## Publishing -/

/-- What became of a value at one target. -/
inductive Offer where
  | stored
  | refused
  | parked
deriving DecidableEq, Repr

/-- Offer a value to one target. A full buffer parks the publish or, on a lossy hub, costs that
subscriber the value; a target that is gone refuses it. -/
def offer (h : Hub π ρ α) (id : SubscriptionId) (publication : Publication π α) :
    Hub π ρ α × Offer × List (ρ × Option α) :=
  match h.pipeline? id with
  | none => (h, .refused, [])
  | some p =>
    if p.isOpen then
      if p.buffer.hasRoom then
        let (p', received) := p.store publication.value
        (h.setPipeline id p', .stored, received)
      else
        match h.policy with
        | .reliable => (h.setPipeline id (p.park publication publication.value), .parked, [])
        | .lossy => ({ h with dropped := h.dropped + 1 }, .refused, [])
    else (h, .refused, [])

/-- How far a publish has come: the hub, the number of buffers that took a value, whether it is
parked now, and the receives it answered. -/
structure Progress (π ρ α : Type) where
  hub : Hub π ρ α
  accepted : Nat
  parked : Bool
  received : List (ρ × Option α)

/-- Visit the targets ahead one after another, until one of them parks the publish. -/
def visit (publication : Publication π α) :
    List SubscriptionId → Progress π ρ α → Progress π ρ α
  | [], r => r
  | id :: ahead, r =>
    match r.hub.offer id { publication with ahead, accepted := r.accepted } with
    | (hub, .stored, received) =>
      visit publication ahead ⟨hub, r.accepted + 1, false, r.received ++ received⟩
    | (hub, .refused, _) => visit publication ahead { r with hub }
    | (hub, .parked, _) => { r with hub, parked := true }

/-- Publish values one after another. On a closed hub a value goes nowhere and is not counted. -/
def publishEach (caller : π) (order : List SubscriptionId) :
    List α → Progress π ρ α → Progress π ρ α
  | [], r => r
  | value :: later, r =>
    if r.hub.closed then publishEach caller order later r
    else
      let hub := { r.hub with published := r.hub.published + 1 }
      let r' := visit ⟨caller, order, value, [], 0, later⟩ (hub.targets order) { r with hub }
      if r'.parked then r' else publishEach caller order later r'

/-- Publish a list of values one after another as one call, whose result is the number of buffers
that took them, counted over all values. Each visits the subscriptions in `order` first. -/
def publishAll (h : Hub π ρ α) (caller : π) (order : List SubscriptionId) (values : List α) :
    Reply π ρ α (Outcome Nat) :=
  let r := publishEach caller order values ⟨h, 0, false, []⟩
  ⟨r.hub, if r.parked then .parked else .returned r.accepted, r.received, []⟩

/-- Publish a value to every registered subscription, oldest first. -/
def publish (h : Hub π ρ α) (caller : π) (value : α) : Reply π ρ α (Outcome Nat) :=
  h.publishAll caller [] [value]

/-! ## Publishes that go on -/

/-- A parked publish goes on after its target stored or refused the value. -/
def resume (h : Hub π ρ α) (publication : Publication π α) (stored : Bool) : Progress π ρ α :=
  let accepted := publication.accepted + (if stored then 1 else 0)
  let r := visit publication publication.ahead ⟨h, accepted, false, []⟩
  if r.parked then r else publishEach publication.caller publication.order publication.later r

/-- Publishes that were let in or turned away go on, in order. -/
def resumeAll (stored : Bool) : List (Publication π α) → Reply π ρ α β → Reply π ρ α β
  | [], reply => reply
  | publication :: rest, reply =>
    let r := reply.hub.resume publication stored
    let returned := if r.parked then [] else [(publication.caller, r.accepted)]
    resumeAll stored rest
      { reply with
        hub := r.hub
        received := reply.received ++ r.received
        returned := reply.returned ++ returned }

/-! ## Closing -/

/-- Shut every open pipeline, discarding nothing. The answered receives and the publishes turned
away come in the order of the pipelines. -/
def retireAll : List (SubscriptionId × Pipeline (Publication π α) ρ α) →
    List (SubscriptionId × Pipeline (Publication π α) ρ α) × List (ρ × Option α) ×
      List (Publication π α)
  | [] => ([], [], [])
  | (id, p) :: rest =>
    let (pipelines, received, publications) := retireAll rest
    if p.isOpen then
      let (p', received', publications') := p.retire
      ((id, p') :: pipelines, received' ++ received, publications' ++ publications)
    else ((id, p) :: pipelines, received, publications)

/-- Close the hub and end every subscription. What has been stored is still delivered; the parked
publishes go on without their target. Closing again changes nothing. -/
def close (h : Hub π ρ α) : Reply π ρ α Unit :=
  if h.closed then ⟨h, (), [], []⟩
  else
    let (pipelines, received, publications) := retireAll h.pipelines
    resumeAll false publications ⟨{ h with pipelines, closed := true }, (), received, []⟩

/-- A hub without an owner closes once no publish is under way in it. -/
def settle (reply : Reply π ρ α β) : Reply π ρ α β :=
  if reply.hub.owned || !reply.hub.parkedPublications.isEmpty then reply
  else
    let closing := reply.hub.close
    { reply with
      hub := closing.hub
      received := reply.received ++ closing.received
      returned := reply.returned ++ closing.returned }

/-- The owner lets go of the hub. -/
def disown (h : Hub π ρ α) : Reply π ρ α Unit := settle ⟨{ h with owned := false }, (), [], []⟩

/-! ## Subscriptions -/

/-- Register a pipeline under the next free name. -/
def register (h : Hub π ρ α) (p : Pipeline (Publication π α) ρ α) : Hub π ρ α × SubscriptionId :=
  let id := h.lastId + 1
  ({ h with lastId := id, pipelines := h.pipelines ++ [(id, p)] }, id)

/-- Register a subscriber with a buffer of `n` values, zero counting as one. A closed hub gives
out a handle with nothing behind it. -/
def subscribe (h : Hub π ρ α) (n : Nat) : Hub π ρ α × SubscriptionId :=
  if h.closed then (h, 0) else h.register (.new n)

/-- Register a subscriber who waits for a value from the start. -/
def subscribeWaiting (h : Hub π ρ α) (n : Nat) (caller : ρ) : Hub π ρ α × SubscriptionId :=
  if h.closed then (h, 0)
  else
    let p : Pipeline (Publication π α) ρ α := .new n
    h.register { p with receiver := some caller }

/-- Unregister a subscription and discard what is in its buffer. A subscription that has ended
already, or was never there, is left as it is. -/
def cancel (h : Hub π ρ α) (id : SubscriptionId) : Reply π ρ α Unit :=
  match h.pipeline? id with
  | none => ⟨h, (), [], []⟩
  | some p =>
    if p.isOpen then
      let (p', received, publications) := p.cancel
      settle (resumeAll false publications ⟨h.setPipeline id p', (), received, []⟩)
    else ⟨h, (), [], []⟩

/-- The holder of a subscription goes away: it is cancelled and its pipeline forgotten. -/
def abandon (h : Hub π ρ α) (id : SubscriptionId) : Reply π ρ α Unit :=
  let reply := h.cancel id
  { reply with hub := { reply.hub with pipelines := reply.hub.pipelines.filter (·.1 != id) } }

/-! ## Receiving -/

/-- Receive without waiting. A handle with nothing behind it has ended. -/
def tryReceive (h : Hub π ρ α) (id : SubscriptionId) : Reply π ρ α (Reception α) :=
  match h.pipeline? id with
  | none => ⟨h, .ended, [], []⟩
  | some p =>
    let (p', reception, publication) := p.tryReceive
    settle (resumeAll true publication.toList ⟨h.setPipeline id p', reception, [], []⟩)

/-- Receive, waiting for a value; there is none once the subscription has ended. -/
def receive (h : Hub π ρ α) (id : SubscriptionId) (caller : ρ) :
    Reply π ρ α (Outcome (Option α)) :=
  let reply := h.tryReceive id
  match reply.result, reply.hub.pipeline? id with
  | .value v, _ => { reply with result := .returned (some v) }
  | .empty, some p =>
    { reply with
      hub := reply.hub.setPipeline id { p with receiver := some caller }
      result := .parked }
  | _, _ => { reply with result := .returned none }

/-- Whether a receive waits on a handle. -/
def isWaiting (h : Hub π ρ α) (id : SubscriptionId) : Bool :=
  (h.pipeline? id).any (·.receiver.isSome)

/-- An upper bound on the number of values that a handle can yield without a new publish call:
the unread ones, and those of the publishes under way. -/
def backlog (h : Hub π ρ α) (id : SubscriptionId) : Nat :=
  ((h.pipeline? id).map (·.unreadCount)).getD 0 +
    h.parkedPublications.foldl (fun n p => n + p.later.length + 1) 0

/-- What draining a handle gave: the values in order, and whether the subscription has ended. -/
structure Drained (α : Type) where
  values : List α
  ended : Bool
deriving DecidableEq, Repr

/-- Receive at most `fuel` values without waiting, on top of those in `acc`, newest first. -/
def drainUpTo (id : SubscriptionId) :
    (fuel : Nat) → (acc : List α) → Reply π ρ α Unit → Reply π ρ α (Drained α)
  | 0, acc, reply => { reply with result := ⟨acc.reverse, false⟩ }
  | fuel + 1, acc, reply =>
    let next := reply.hub.tryReceive id
    let reply' : Reply π ρ α Unit :=
      ⟨next.hub, (), reply.received ++ next.received, reply.returned ++ next.returned⟩
    match next.result with
    | .value v => drainUpTo id fuel (v :: acc) reply'
    | .empty => { reply' with result := ⟨acc.reverse, false⟩ }
    | .ended => { reply' with result := ⟨acc.reverse, true⟩ }

/-- Receive without waiting until nothing more comes. -/
def drain (h : Hub π ρ α) (id : SubscriptionId) : Reply π ρ α (Drained α) :=
  drainUpTo id (h.backlog id + 1) [] ⟨h, (), [], []⟩

end Hub

/-- How the handle of a subscription is shown. -/
def describeSubscription (id : SubscriptionId) : String :=
  Text.record "Subscription" [("id", toString id)]

/-- How the means to cancel a subscription is shown; one from a closed hub is bound to nothing. -/
def describeCanceller (id : SubscriptionId) : String :=
  Text.record "Canceller" [("id", toString id), ("bound", Text.showBool (id != 0))]

end Switchboard
