import Switchboard.Session.Registry

/-!
# Rosters

Who is online, as far as the session's collaborator can tell.

**Queries.** A roster answers in the order in which its players stand; the first match wins. While
it fails, every query is answered with a fault instead.
-/

namespace Switchboard

/-- The players online, and whether queries fail at the moment. -/
structure Roster where
  players : List Player
  failing : Bool

namespace Roster

/-- The fault with which a failing roster answers. -/
def unavailable : Fault := .plain "roster unavailable"

/-- A query on the players, unless the roster fails. -/
def query {β : Type} (r : Roster) (f : List Player → β) : Except Fault β :=
  if r.failing then .error unavailable else .ok (f r.players)

/-- Everyone online. -/
def online (r : Roster) : Except Fault (List Player) := r.query fun players => players

/-- The first player with an identifier. -/
def byId (r : Roster) (id : String) : Except Fault (Option Player) :=
  r.query (·.find? (·.uuid = some id))

/-- The first player with a name. -/
def byName (r : Roster) (name : String) : Except Fault (Option Player) :=
  r.query (·.find? (·.name = name))

end Roster

end Switchboard
