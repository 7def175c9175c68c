import Switchboard.Session.State

/-!
# Connects, disconnects and forced ends

How sessions come and go.

**Transitions.** A connect that wins installs its session, a disconnect or a forced end takes it
away. Each of them replaces the cycle first (`turnCycle`): the hub of the cycle that ends carries
the cause, if there is one, and is closed. Then the message is published; only there can the call
be parked, and by then the transition is complete.

**Races.** A connect goes through three phases: `establish`, `install`, and, if a session was
installed in the meantime, `reject`, which tears its own connection down again.

**Signals.** `fire` notes what became of a signal. A watch that is running ends its session
(`endSession`), unless that session is no longer installed.

**The order of visits.** A publish may visit the subscriptions of a hub in any order; here it is
always the oldest first, and no statement about a session depends on that. The hub of a cycle carries
one cause, for which every subscription has room, so all of them take it in the same step and the
order shows only in the order in which receives return that wait for it. The publish of a message is parked if some buffer is
full, whichever is visited first; until it returns, the order shows only in who has the message
already. With a single subscription there is nothing to choose.

**Settling.** Every operation ends with `settle`: the session is released if nobody holds it, and
the watches whose signal is gone go on.
-/

namespace Switchboard.Session

/-- Change the ledger. -/
def record (s : Session) (f : Ledger → Ledger) : Session := { s with ledger := f s.ledger }

/-- Note that a parked call has returned. -/
def complete (s : Session) (c : Completion) : Session :=
  { s with completions := s.completions ++ [c] }

/-! ## Readers of causes -/

/-- Give up a subscription to the causes of a cycle. -/
def leaveCycle (s : Session) (number : Nat) (id : SubscriptionId) : Session :=
  match s.cycle? number with
  | none => s
  | some c => s.setCycle { c with disconnects := (c.disconnects.abandon id).hub }

/-- Let an observer wait for the cause of the current cycle. -/
def subscribeObserver (s : Session) (o : Observer) : Session :=
  let (hub, id) := s.cycle.disconnects.subscribeWaiting s.settings.observerBuffer
    (.observer o.name)
  let s := { s with cycle := { s.cycle with disconnects := hub } }
  s.setObserver { o with subscription := some (s.cycle.number, id) }

/-- The receive of an observer has returned. A cause is collected; the old subscription is given
up, and unless the observer has reached its number, it subscribes to the current cycle. -/
def observe (s : Session) (name : String) (cause : Option Cause) : Session :=
  match s.observer? name with
  | none => s
  | some o =>
    let o := { o with causes := o.causes ++ cause.toList }
    let s := match o.subscription with
      | some (number, id) => s.leaveCycle number id
      | none => s
    if cause.isSome && o.stopAfter == some o.causes.length then
      s.setObserver { o with subscription := none }
    else s.subscribeObserver o

/-- Receives of causes that have returned. -/
def readCauses (s : Session) (received : List (CauseReader × Option Cause)) : Session :=
  received.foldl (fun s r =>
    match r.1 with
    | .call call => s.complete (.cause call r.2)
    | .observer name => s.observe name r.2) s

/-! ## Cycles -/

/-- Publish the cause of a cycle's end, if there is one, and close its hub. -/
def endCycle (c : Cycle) (cause : Option Cause) :
    Cycle × List (CauseReader × Option Cause) :=
  match cause with
  | none =>
    let closing := c.disconnects.close
    ({ c with disconnects := closing.hub }, closing.received)
  | some cause =>
    let publishing := c.disconnects.publish () cause
    let closing := publishing.hub.close
    ({ c with disconnects := closing.hub }, publishing.received ++ closing.received)

/-- End the current cycle, with or without a cause, and begin the next one. -/
def turnCycle (s : Session) (cause : Option Cause) (active : Option Active) : Session :=
  let (ended, received) := endCycle s.cycle cause
  readCauses
    { s with
      cycle := freshCycle s.settings (s.cycle.number + 1)
      past := ended :: s.past
      active }
    received

/-! ## Signals and teardown -/

/-- Note what became of a session's signal, unless something did before. -/
def fire (s : Session) (session : Serial) (cause : Cause) : Session :=
  { s with
    watches := s.watches.map fun w =>
      if w.session = session && w.fired.isNone then { w with fired := some cause } else w }

/-- Tear a connection down. A signal that was still pending is lost. -/
def teardown (s : Session) (session : Serial) : Session × Option Fault :=
  let (connector, fault) := s.connector.teardown session
  (fire { s with connector } session .signalLost, fault)

/-! ## Messages -/

/-- Receives of messages that have returned. -/
def readMessages (s : Session) (received : List (Nat × Option Message)) : Session :=
  received.foldl (fun s r => s.complete (.message r.1 r.2)) s

/-- The publish of a lifecycle message has returned. The watch over a newly installed session
starts. -/
def published (s : Session) (who : LifecycleCall) : Session :=
  let s := s.record Ledger.message
  match who with
  | .connect _ session =>
    { s with
      watches := s.watches.map fun w =>
        if w.session = session then { w with running := true } else w }
  | _ => s

/-- Publish a lifecycle message, and say whether the publish returned. -/
def announce (s : Session) (who : LifecycleCall) (m : Message) : Session × Bool :=
  let reply := s.messages.publish who m
  let s := readMessages { s with messages := reply.hub } reply.received
  match reply.result with
  | .returned _ => (s.published who, true)
  | .parked => (s, false)

/-- A parked publish of a lifecycle message has returned, and with it the call that made it. -/
def resumeCall (s : Session) (who : LifecycleCall) : Session :=
  let s := s.published who
  match who with
  | .connect call session => s.complete (.connected call session)
  | .disconnect call fault => s.complete (.disconnected call fault)
  | .termination _ => s

/-! ## Ends -/

/-- End a session whose connection has ended on its own. Nothing happens if that session is not
the one installed. -/
def endSession (s : Session) (session : Serial) (cause : Cause) : Session :=
  if s.active.any (·.session = session) then
    let (s, fault) := s.teardown session
    let s := s.record (·.teardown fault)
    let s := s.turnCycle (some cause) none
    let s := s.record (·.disconnect cause)
    (s.announce (.termination session) (.connectionClosed cause)).1
  else s

/-- The watches that have nothing left to wait for go on, one after another. -/
def runWatches (s : Session) : Session :=
  let ready := s.watches.filter fun w => w.running && w.fired.isSome
  let waiting := s.watches.filter fun w => !(w.running && w.fired.isSome)
  ready.foldl (fun s w =>
    match w.fired with
    | some cause => s.endSession w.session cause
    | none => s) { s with watches := waiting }

/-- The last holder has let go: an installed session is torn down and both hubs are closed. -/
def release (s : Session) : Session :=
  let s := match s.active with
    | none => s
    | some a =>
      let (s, _) := s.teardown a.session
      { s.record (·.disconnect .cancelled) with active := none }
  let (ended, causes) := endCycle s.cycle none
  let closing := s.messages.close
  let s := { s with
    cycle := ended
    messages := closing.hub
    watches := []
    released := true }
  (s.readCauses causes).readMessages closing.received

/-- Release the session if nobody holds it. -/
def releaseIfUnheld (s : Session) : Session :=
  if s.released || s.isHeld then s else s.release

/-- Let everything go on that can: the session is released if nobody holds it, and otherwise the
watches run. -/
def settle (s : Session) : Session := s.releaseIfUnheld.runWatches.releaseIfUnheld

/-- The state after an operation on the message hub: the calls it released have returned. -/
def absorb {β : Type} (s : Session) (reply : Hub.Reply LifecycleCall Nat Message β) : Session :=
  let s := readMessages { s with messages := reply.hub } reply.received
  settle (reply.returned.foldl (fun s r => s.resumeCall r.1) s)

/-! ## Connecting -/

/-- The first phase of a connect: have the connector establish a connection. -/
def establish (s : Session) : Session × Except SessionError Serial :=
  let (connector, result) := s.connector.establish
  let s := { s with connector }
  match result with
  | .ok serial => (s, .ok serial)
  | .error fault => (s.record Ledger.failEstablish, .error (.collaborator fault))

/-- The second phase: install the connection, unless a session is installed. -/
def install (s : Session) (serial : Serial) : Session × Bool :=
  if s.isConnected then (s, false)
  else
    let active : Active := ⟨serial, [], .ofCatalog s.connector.catalog⟩
    let watch : Watch := ⟨serial, false, none⟩
    let s := s.turnCycle none (some active)
    let s := { s with watches := s.watches ++ [watch] }
    (s.record Ledger.connect, true)

/-- The phase of a connect that lost: tear its own connection down. -/
def reject (s : Session) (serial : Serial) : Session :=
  let (s, fault) := s.teardown serial
  (s.record (·.teardown fault)).record Ledger.refuseSecond

/-- Establish a session. The result is the serial of its connection. -/
def connect (s : Session) (call : Nat) (options : Options) :
    Session × Outcome (Except SessionError Serial) :=
  match options.validate with
  | .error e => (s.record Ledger.refuseOptions, .returned (.error e))
  | .ok _ =>
    match s.establish with
    | (s, .error e) => (s, .returned (.error e))
    | (s, .ok serial) =>
      match s.install serial with
      | (s, false) => (s.reject serial, .returned (.error .alreadyConnected))
      | (s, true) =>
        match s.announce (.connect call serial) (.status Message.connectedText) with
        | (s, true) => (s.settle, .returned (.ok serial))
        | (s, false) => (s.settle, .parked)

/-- Make `n` connects at once for one call. Whichever installs its session first, the others lose
to it, so they may as well follow one another. -/
def connectAll (s : Session) (call : Nat) (options : Options) :
    (n : Nat) → Session × List (Outcome (Except SessionError Serial))
  | 0 => (s, [])
  | n + 1 =>
    let (s, outcome) := s.connect call options
    let (s, outcomes) := s.connectAll call options n
    (s, outcome :: outcomes)

/-! ## Disconnecting -/

/-- The notice that follows an explicit disconnect, with the fault of the teardown if it failed. -/
def disconnectNotice : Option Fault → Message
  | none => .status Message.disconnectedText
  | some fault => (Message.status Message.disconnectedText).withError fault.message

/-- The result of a disconnect. -/
def disconnectResult : Option Fault → Except SessionError Unit
  | none => .ok ()
  | some fault => .error (.collaborator fault)

/-- End the installed session. A fault of the teardown is returned, but the session is gone. -/
def disconnect (s : Session) (call : Nat) : Session × Outcome (Except SessionError Unit) :=
  match s.active with
  | none => (s, .returned (.error .notConnected))
  | some a =>
    let s := s.turnCycle (some .cancelled) none
    let (s, fault) := s.teardown a.session
    let s := (s.record (·.teardown fault)).record (·.disconnect .cancelled)
    match s.announce (.disconnect call fault) (disconnectNotice fault) with
    | (s, true) => (s.settle, .returned (disconnectResult fault))
    | (s, false) => (s.settle, .parked)

/-! ## The connector's side -/

/-- End the latest live connection with a cause, and say whether there was one. -/
def terminate (s : Session) (cause : Cause) : Session × Bool :=
  match s.connector.takeLatest with
  | (_, none) => (s, false)
  | (connector, some serial) => ((fire { s with connector } serial cause).settle, true)

/-- Drop the signal of the latest live connection, and say whether there was one. -/
def dropSignal (s : Session) : Session × Bool := s.terminate .signalLost

/-- Change the roster. -/
def setRoster (s : Session) (f : Roster → Roster) : Session :=
  { s with connector := { s.connector with roster := f s.connector.roster } }

/-! ## Holders -/

/-- Hold the state under one more name. -/
def clone (s : Session) (name : String) : Session :=
  if s.clones.contains name then s else { s with clones := s.clones ++ [name] }

/-- Let go of a clone, and say whether it was held. -/
def dropClone (s : Session) (name : String) : Session × Bool :=
  if s.clones.contains name then
    (settle { s with clones := s.clones.filter (· != name) }, true)
  else (s, false)

/-- The owner lets go of the state. -/
def disown (s : Session) : Session := settle { s with owned := false }

/-! ## Observers -/

/-- Stop an observer: it gives up its subscription and collects nothing more. -/
def stopObserver (s : Session) (name : String) : Session :=
  match s.observer? name with
  | none => s
  | some o =>
    match o.subscription with
    | none => s
    | some (number, id) =>
      settle ((s.leaveCycle number id).setObserver { o with subscription := none })

/-- Stop an observer and forget it. -/
def dropObserver (s : Session) (name : String) : Session :=
  let s := s.stopObserver name
  { s with observers := s.observers.filter (·.name != name) }

/-- Start an observer. It stops itself after `stopAfter` causes, if that is given. -/
def startObserver (s : Session) (name : String) (stopAfter : Option Nat) : Session :=
  let s := s.dropObserver name
  let o : Observer := ⟨name, stopAfter, [], none⟩
  subscribeObserver { s with observers := s.observers ++ [o] } o

end Switchboard.Session
