import Switchboard.Hub.Basic
import Switchboard.Session.Connector
import Switchboard.Session.Ledger
import Switchboard.Session.Options
import Switchboard.Session.Settings

/-!
# The state of a session

One owner of at most one live connection, and everyone who follows it.

**Cycles.** Each time a session is installed or ends, a new cycle begins, with a disconnect hub
and a registry of its own. Handles from an earlier cycle go on pointing at that cycle's.

**Messages.** One message hub lasts as long as the owner. A lifecycle call publishes on it at its
end, and with the reliable policy that is where it may be parked.

**Watches.** For every installed session somebody waits for its termination signal. The watch
starts when the connect that installed the session returns; a signal that goes away before then is
kept for it.

**Observers.** An observer subscribes to the disconnect hub of each cycle in turn and collects the
causes it receives.

**Holders.** The state is held by its owner, by clones, by running observers and by parked
lifecycle calls. When the last of them lets go, the session is released.
-/

namespace Switchboard

/-- Who publishes on the message hub. -/
inductive LifecycleCall where
  /-- The connect made by a call, which installed a session. -/
  | connect (call : Nat) (session : Serial)
  /-- The disconnect made by a call, and the fault of its teardown. -/
  | disconnect (call : Nat) (fault : Option Fault)
  /-- The forced end of a session. -/
  | termination (session : Serial)
deriving DecidableEq, Repr

/-- Who receives a cause. -/
inductive CauseReader where
  /-- A receive made by a call. -/
  | call (call : Nat)
  /-- An observer. -/
  | observer (name : String)
deriving DecidableEq, Repr

/-- The installed session, named by the serial of its connection. -/
structure Active where
  session : Serial
  /-- The commands sent through its interaction facet, oldest first. -/
  sent : List String
  packets : Packet.Names

/-- The time between two changes of the installed session. -/
structure Cycle where
  number : Nat
  disconnects : Hub Unit CauseReader Cause
  registry : Registry String Player

/-- Somebody waits for the termination signal of a session. -/
structure Watch where
  session : Serial
  /-- The connect that installed the session has returned. -/
  running : Bool
  /-- What became of the signal, if it is no longer pending. -/
  fired : Option Cause
deriving DecidableEq, Repr

/-- An observer, what it has collected, and the subscription on which it waits: the number of the
cycle and the name within that cycle's hub. One that has stopped waits on nothing. -/
structure Observer where
  name : String
  /-- The number of causes after which it stops itself. -/
  stopAfter : Option Nat
  causes : List Cause
  subscription : Option (Nat × SubscriptionId)
deriving DecidableEq, Repr

/-- Whether an observer still waits for causes. -/
def Observer.isRunning (o : Observer) : Bool := o.subscription.isSome

/-- A call that had been parked and has returned. -/
inductive Completion where
  /-- A connect, with the session it installed. -/
  | connected (call : Nat) (session : Serial)
  /-- A disconnect, with the fault of its teardown. -/
  | disconnected (call : Nat) (fault : Option Fault)
  /-- A receive of a message. -/
  | message (call : Nat) (message : Option Message)
  /-- A receive of a cause. -/
  | cause (call : Nat) (cause : Option Cause)
deriving DecidableEq, Repr

/-- The state of a session. -/
structure Session where
  settings : Settings
  connector : Connector
  messages : Hub LifecycleCall Nat Message
  cycle : Cycle
  /-- The earlier cycles, latest first. -/
  past : List Cycle
  active : Option Active
  watches : List Watch
  observers : List Observer
  /-- The owner still holds the state. -/
  owned : Bool
  /-- The names of the clones that are held. -/
  clones : List String
  /-- The last holder has let go. -/
  released : Bool
  ledger : Ledger
  /-- The parked calls that have returned and have not been collected yet, in order. -/
  completions : List Completion

namespace Session

/-- The cycle that begins with a number, with nobody subscribed and nothing cached. -/
def freshCycle (settings : Settings) (number : Nat) : Cycle :=
  ⟨number, .new (settings.hubLabel "disc") .reliable, .empty⟩

/-- A session in which nothing is installed. -/
def new (settings : Settings) (connector : Connector) : Session where
  settings
  connector
  messages := .new (settings.hubLabel "msg") settings.messagePolicy
  cycle := freshCycle settings 0
  past := []
  active := none
  watches := []
  observers := []
  owned := true
  clones := []
  released := false
  ledger := .empty
  completions := []

/-- Whether a session is installed. -/
def isConnected (s : Session) : Bool := s.active.isSome

/-- The registry of the current cycle. -/
def registry (s : Session) : Registry String Player := s.cycle.registry

/-- A cycle by its number. -/
def cycle? (s : Session) (number : Nat) : Option Cycle :=
  if s.cycle.number = number then some s.cycle else s.past.find? (·.number = number)

/-- Put a changed cycle in its place. -/
def setCycle (s : Session) (c : Cycle) : Session :=
  if s.cycle.number = c.number then { s with cycle := c }
  else { s with past := s.past.map fun d => if d.number = c.number then c else d }

/-- An observer by its name. -/
def observer? (s : Session) (name : String) : Option Observer := s.observers.find? (·.name = name)

/-- Put a changed observer in its place. -/
def setObserver (s : Session) (o : Observer) : Session :=
  { s with observers := s.observers.map fun p => if p.name = o.name then o else p }

/-- Whether anybody holds the state. -/
def isHeld (s : Session) : Bool :=
  s.owned || !s.clones.isEmpty || s.observers.any (·.isRunning) ||
    !s.messages.parkedPublications.isEmpty

/-- The parked calls that have returned since the last collection, in order. -/
def collect (s : Session) : Session × List Completion :=
  ({ s with completions := [] }, s.completions)

/-- How a session is shown. Of an installed session, its identifier and the time of its connect
are left out. -/
def describe (s : Session) : String :=
  let start := "SessionState \x7b label: " ++ Text.quoted s.settings.label ++
    ", status: SessionStatus \x7b connected: " ++ Text.showBool s.isConnected ++ ", "
  if s.isConnected then start
  else start ++ "session_id: None, connected_at: None \x7d \x7d"

end Session

end Switchboard
