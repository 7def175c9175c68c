import Switchboard.Proofs.Hub.Confined
import Switchboard.Session.Access
import Switchboard.Session.Subscriptions

/-!
# Runs of a session

What everyone around a session may do, one step at a time, and what a run of such steps leaves
behind.

**Holders.** Most steps are made on the state itself and need somebody who holds it. The connector
is outside and may be told what to do at any time, and so may the holders of handles, clones and
observers.

**Handles.** A handle for the cause of a cycle is used only after it was given out, and not while a
receive waits on it. A cancel goes through at any time.

Steps that only look at the state are left out.
-/

namespace Switchboard.Session

open Hub (Use)

/-- What is done with a session. -/
inductive Step where
  | connect (options : Options)
  /-- Make `n` connects at once. -/
  | race (n : Nat) (options : Options)
  | disconnect
  /-- End the latest live connection with a cause. -/
  | terminate (cause : Cause)
  /-- Drop the signal of the latest live connection. -/
  | dropSignal
  | setRoster (roster : Roster)
  /-- Tell the connector whether to fail its establishes. -/
  | failEstablish (on : Bool)
  /-- Tell the connector whether to report a fault for its teardowns. -/
  | failTeardown (on : Bool)
  | clone (name : String)
  | dropClone (name : String)
  /-- The owner lets go of the state. -/
  | disown
  | startObserver (name : String) (stopAfter : Option Nat)
  | stopObserver (name : String)
  | dropObserver (name : String)
  | subscribeMessages (n : Nat)
  | messages (id : SubscriptionId) (use : Use)
  | subscribeCauses (n : Nat)
  | causes (handle : CauseHandle) (use : Use)
  | sendCommand (command : String)
  | snapshotPlayers
  | findPlayerById (id : String)
  | findPlayerByName (name : String)
  | releasePlayer (id : String)
  | bind (key : String) (player : Player)
  | bindIdentity (player : Player)

/-- Whether the owner or a clone holds the state. -/
def hasHandle (s : Session) : Bool := s.owned || !s.clones.isEmpty

/-- What a step comes to: the state after it, the handle it gives out, and the causes that its
caller receives at once. -/
structure Effect where
  session : Session
  handle : Option CauseHandle
  values : List (CauseHandle × Cause)

/-- A step that only changes the state. -/
def plain (s : Session) : Effect := ⟨s, none, []⟩

/-- A step that only a holder may make. -/
def byHolder (s : Session) (effect : Effect) : Effect := if s.hasHandle then effect else s.plain

/-- Use a handle for messages. -/
def useMessages (s : Session) (id : SubscriptionId) (call : Nat) : Use → Session
  | .receive => if s.messages.isWaiting id then s else (s.receiveMessage id call).1
  | .tryReceive => if s.messages.isWaiting id then s else (s.tryReceiveMessage id).1
  | .drain => if s.messages.isWaiting id then s else (s.drainMessages id).1
  | .cancel => s.cancelMessages id
  | .abandon => if s.messages.isWaiting id then s else s.abandonMessages id

/-- Use a handle for a cause, on which nothing waits. -/
def useCauses (s : Session) (handle : CauseHandle) (call : Nat) : Use → Session × List Cause
  | .receive => (s.receiveCause handle call).map id (·.values)
  | .tryReceive => (s.tryReceiveCause handle).map id (·.values)
  | .drain => (s.drainCauses handle).map id (·.values)
  | .cancel => (s.cancelCauses handle, [])
  | .abandon => (s.abandonCauses handle, [])

namespace Step

/-- A step made by a call, when some handles have been given out. -/
def act (s : Session) (call : Nat) (handles : List CauseHandle) : Step → Effect
  | connect options => s.byHolder (s.connect call options).1.plain
  | race n options => s.byHolder (s.connectAll call options n).1.plain
  | disconnect => s.byHolder (s.disconnect call).1.plain
  | terminate cause => (s.terminate cause).1.plain
  | dropSignal => s.dropSignal.1.plain
  | setRoster roster => (s.setRoster fun _ => roster).plain
  | failEstablish on => plain { s with connector := { s.connector with failEstablish := on } }
  | failTeardown on => plain { s with connector := { s.connector with failTeardown := on } }
  | clone name => s.byHolder (s.clone name).plain
  | dropClone name => (s.dropClone name).1.plain
  | disown => s.disown.plain
  | startObserver name stopAfter => s.byHolder (s.startObserver name stopAfter).plain
  | stopObserver name => (s.stopObserver name).plain
  | dropObserver name => (s.dropObserver name).plain
  | subscribeMessages n => s.byHolder (s.subscribeMessages n).1.plain
  | messages id use => (s.useMessages id call use).plain
  | subscribeCauses n =>
    s.byHolder ⟨(s.subscribeCauses n).1, some (s.subscribeCauses n).2, []⟩
  | causes handle use =>
    if handle ∉ handles || (use ≠ .cancel && s.isWaitingForCause handle) then s.plain
    else
      let (session, values) := s.useCauses handle call use
      ⟨session, none, values.map (handle, ·)⟩
  | sendCommand command => s.byHolder (s.sendCommand command).1.plain
  | snapshotPlayers => s.byHolder s.snapshotPlayers.1.plain
  | findPlayerById id => s.byHolder (s.findPlayerById id).1.plain
  | findPlayerByName name => s.byHolder (s.findPlayerByName name).1.plain
  | releasePlayer id => s.byHolder (s.releasePlayer id).1.plain
  | bind key player => s.byHolder (s.setRegistry (s.registry.bind key player).1).plain
  | bindIdentity player => s.byHolder (s.setRegistry (s.registry.bindIdentity player).1).plain

/-- The signal that a step ends, with the cause it is given. -/
def signal (s : Session) : Step → Option (Serial × Cause)
  | terminate cause => s.connector.takeLatest.2.map (·, cause)
  | dropSignal => s.connector.takeLatest.2.map (·, .signalLost)
  | _ => none

/-- The steps that establish connections. -/
def Connects : Step → Prop
  | connect _ | race .. => True
  | _ => False

/-- The steps that stop the observer of a name. One that starts another under its name is among
them. -/
def Stops (name : String) : Step → Prop
  | stopObserver n | dropObserver n | startObserver n _ => n = name
  | _ => False

end Step

/-! ## Runs -/

/-- The handle on which a call was made, if the steps made so far say so. -/
def handleOf (steps : List Step) (call : Nat) : Option CauseHandle :=
  match steps[call]? with
  | some (.causes handle _) => some handle
  | _ => none

/-- The causes that parked receives returned with. -/
def answered (steps : List Step) (completions : List Completion) : List (CauseHandle × Cause) :=
  completions.filterMap fun
    | .cause call (some cause) => (handleOf steps call).map (·, cause)
    | _ => none

/-- Those of the causes received that came through a handle. -/
def through (handle : CauseHandle) (received : List (CauseHandle × Cause)) : List Cause :=
  (received.filter (·.1 = handle)).map (·.2)

/-- A run so far: the state, and what has been seen of it. -/
structure Run where
  session : Session
  steps : List Step
  /-- The handles given out for causes. -/
  handles : List CauseHandle
  /-- The signals ended, each with its cause. -/
  signals : List (Serial × Cause)
  /-- The causes received, each with the handle. -/
  received : List (CauseHandle × Cause)

namespace Run

/-- One more step. The parked calls that returned in it are collected at its end. -/
def next (r : Run) (st : Step) : Run :=
  let effect := st.act r.session r.steps.length r.handles
  let steps := r.steps ++ [st]
  let (session, completions) := effect.session.collect
  { session
    steps
    handles := r.handles ++ effect.handle.toList
    signals := r.signals ++ (st.signal r.session).toList
    received := r.received ++ effect.values ++ answered steps completions }

/-- More steps. -/
def extend (r : Run) (steps : List Step) : Run := steps.foldl next r

/-- The causes received through a handle. -/
def receivedBy (r : Run) (handle : CauseHandle) : List Cause := through handle r.received

/-- The cause with which the signal of a session ended. -/
def signalOf (r : Run) (session : Serial) : Option Cause := r.signals.lookup session

end Run

/-- The run of some steps on a new session. -/
def run (settings : Settings) (players : List Player) (catalog : List Packet.Entry)
    (steps : List Step) : Run :=
  Run.extend ⟨.new settings (.new players catalog), [], [], [], []⟩ steps

theorem run_append (settings : Settings) (players : List Player) (catalog : List Packet.Entry)
    (before after : List Step) :
    run settings players catalog (before ++ after) =
      (run settings players catalog before).extend after :=
  List.foldl_append ..

@[simp] theorem Run.extend_cons (r : Run) (st : Step) (steps : List Step) :
    r.extend (st :: steps) = (r.next st).extend steps := rfl

theorem Run.extend_append (r : Run) (before after : List Step) :
    r.extend (before ++ after) = (r.extend before).extend after :=
  List.foldl_append ..

end Switchboard.Session
