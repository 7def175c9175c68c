import Switchboard.Session.Error
import Switchboard.Table

/-!
# Identity registries

A cache from stable identifiers to the value last seen under each.

**Keys.** The default key, which stands for "no identifier", is never bound: writing under it does
nothing and looking it up finds nothing.

**Visiting.** `iterate` shows the entries to a visitor one by one until the visitor declines the
next.
-/

namespace Switchboard

/-- A player on a roster; one without an identifier is anonymous. -/
structure Player where
  uuid : Option String
  name : String
deriving DecidableEq, Repr

/-- A table of values by identifier. -/
structure Registry (κ ν : Type) where
  table : Table κ ν

namespace Registry

variable {κ ν : Type} [DecidableEq κ] [Inhabited κ]

/-- A registry with nothing in it. -/
def empty : Registry κ ν := ⟨∅⟩

/-- The number of entries. -/
def size (r : Registry κ ν) : Nat := r.table.size

/-- Whether there is no entry. -/
def isEmpty (r : Registry κ ν) : Bool := r.table.isEmpty

/-- The value under a key. -/
def get? (r : Registry κ ν) (key : κ) : Option ν := r.table.get? key

/-- Store a value under a key and return the one it replaces. The default key is ignored. -/
def rebind (r : Registry κ ν) (key : κ) (value : ν) : Registry κ ν × Option ν :=
  if key = default then (r, none) else (⟨r.table.insert key value⟩, r.get? key)

/-- Store a value under a key and return the one it replaces. -/
def bind (r : Registry κ ν) (key : κ) (value : ν) : Registry κ ν × Option ν := r.rebind key value

/-- Remove a key and return the value it had. -/
def delete (r : Registry κ ν) (key : κ) : Registry κ ν × Option ν :=
  (⟨r.table.erase key⟩, r.get? key)

/-- Show entries to a visitor, who answers whether to go on. -/
def visitEach {σ : Type} (visit : σ → κ → ν → σ × Bool) : List (κ × ν) → σ → σ
  | [], s => s
  | (key, value) :: rest, s =>
    let (s', more) := visit s key value
    if more then visitEach visit rest s' else s'

/-- Show the entries to a visitor until it declines to go on. -/
def iterate {σ : Type} (r : Registry κ ν) (visit : σ → κ → ν → σ × Bool) (s : σ) : σ :=
  visitEach visit r.table.entries s

/-- Store a player under its own identifier and return that identifier. -/
def bindIdentity (r : Registry String Player) (player : Player) :
    Registry String Player × Except SessionError String :=
  match player.uuid.filter (· ≠ "") with
  | none => (r, .error .identifierUnavailable)
  | some id => (⟨r.table.insert id player⟩, .ok id)

end Registry

end Switchboard
