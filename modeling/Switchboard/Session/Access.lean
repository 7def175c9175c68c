import Switchboard.Session.Lifecycle

/-!
# What an installed session offers

The guarded operations: each works on the installed session and is refused while there is none.

**Facets.** Commands are sent through the interaction facet, the roster is asked through the query
facet, and packets are looked up in the tables built at the connect.

**Caching.** A player found on the roster is bound in the registry of the cycle. A lookup by
identifier asks the registry first; one by name asks the roster and requires an identifier.
-/

namespace Switchboard.Session

/-- Work on the installed session; without one the work is refused. -/
def guarded {β : Type} (s : Session) (f : Active → Except SessionError β) :
    Except SessionError β :=
  match s.active with
  | none => .error .notConnected
  | some a => f a

/-- Change the registry of the current cycle. -/
def setRegistry (s : Session) (r : Registry String Player) : Session :=
  { s with cycle := { s.cycle with registry := r } }

/-! ## Facets -/

/-- Send a command. -/
def sendCommand (s : Session) (command : String) : Session × Except SessionError Unit :=
  match s.active with
  | none => (s, .error .notConnected)
  | some a => ({ s with active := some { a with sent := a.sent ++ [command] } }, .ok ())

/-- The commands sent in the installed session, oldest first. -/
def sentCommands (s : Session) : Except SessionError (List String) := s.guarded (.ok ·.sent)

/-- The serial of the installed session's connection. -/
def serial (s : Session) : Except SessionError Serial := s.guarded (.ok ·.session)

/-- The interaction facet asked from within the query facet: the serial, and whether a session is
installed as seen from inside. -/
def nested (s : Session) : Except SessionError (Serial × Bool) :=
  s.guarded fun _ => s.guarded fun a => .ok (a.session, s.isConnected)

/-! ## Packets -/

/-- The packet tables of the installed session. -/
def packets (s : Session) : Except SessionError Packet.Names := s.guarded (.ok ·.packets)

/-- The identifier listed for a display name. -/
def packetId (s : Session) (name : String) : Except SessionError Nat :=
  s.guarded fun a =>
    match a.packets.id? name with
    | some id => .ok id
    | none => .error (.notFound ("packet " ++ name))

/-- The display name listed for an identifier. -/
def packetName (s : Session) (id : Nat) : Except SessionError String :=
  s.guarded fun a =>
    match a.packets.name? id with
    | some name => .ok name
    | none => .error (.notFound ("packet id " ++ toString id))

/-! ## Players -/

/-- Bind every player with an identifier, in order. -/
def cacheAll (r : Registry String Player) (players : List Player) : Registry String Player :=
  players.foldl (fun r p =>
    match p.uuid with
    | some id => (r.rebind id p).1
    | none => r) r

/-- Everyone online; those with an identifier are bound. -/
def snapshotPlayers (s : Session) : Session × Except SessionError (List Player) :=
  match s.guarded fun _ => s.connector.roster.online.mapError .collaborator with
  | .error e => (s, .error e)
  | .ok players => (s.setRegistry (cacheAll s.registry players), .ok players)

/-- A player found on the roster, or the error that says who was looked for. -/
def found (who : String) : Except Fault (Option Player) → Except SessionError Player
  | .error fault => .error (.collaborator fault)
  | .ok none => .error (.notFound ("player " ++ who))
  | .ok (some p) => .ok p

/-- The player with an identifier: the one bound to it, or else the one on the roster, who is
then bound. -/
def findPlayerById (s : Session) (id : String) : Session × Except SessionError Player :=
  match s.guarded fun _ => .ok (s.registry.get? id) with
  | .error e => (s, .error e)
  | .ok (some p) => (s, .ok p)
  | .ok none =>
    match found id (s.connector.roster.byId id) with
    | .error e => (s, .error e)
    | .ok p => (s.setRegistry (s.registry.rebind id p).1, .ok p)

/-- The player with a name on the roster, who must carry an identifier and is bound to it. -/
def findPlayerByName (s : Session) (name : String) : Session × Except SessionError Player :=
  match s.guarded fun _ => found name (s.connector.roster.byName name) with
  | .error e => (s, .error e)
  | .ok p =>
    match s.registry.bindIdentity p with
    | (_, .error e) => (s, .error e)
    | (r, .ok _) => (s.setRegistry r, .ok p)

/-- Forget a player, and return the one that was bound. -/
def releasePlayer (s : Session) (id : String) : Session × Option Player :=
  let (r, p) := s.registry.delete id
  (s.setRegistry r, p)

end Switchboard.Session
