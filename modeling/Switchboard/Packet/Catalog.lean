import Switchboard.Packet.DisplayName
import Switchboard.Table

/-!
# Packet catalogs and their tables

A catalog lists packet identifiers with the raw names of their types. Its table looks up either
one from the other.

**Usable entries.** An entry counts only if its name has a display name; the others have no effect
wherever they stand.

**Collisions.** The two directions are written independently, entry by entry, so the last usable
entry wins for its display name and for its identifier.
-/

namespace Switchboard.Packet

/-- One row of a catalog; an identifier may come without a type name. -/
structure Entry where
  id : Nat
  name : Option String
deriving DecidableEq, Repr

/-- The display name of an entry, if it is usable. -/
def Entry.display? (e : Entry) : Option String := e.name.bind displayName

/-- The largest packet identifier. -/
def maxId : Nat := 0xFFFFFFFF

/-- Both directions between identifiers and display names. -/
structure Names where
  ids : Table String Nat
  names : Table Nat String

namespace Names

/-- The tables of an empty catalog. -/
def empty : Names := ⟨∅, ∅⟩

/-- Write one entry into both tables, if it is usable. -/
def add (t : Names) (e : Entry) : Names :=
  match e.display? with
  | none => t
  | some name => ⟨t.ids.insert name e.id, t.names.insert e.id name⟩

/-- The tables of a catalog. -/
def ofCatalog (catalog : List Entry) : Names := catalog.foldl add empty

/-- The identifier listed for a display name. -/
def id? (t : Names) (name : String) : Option Nat := t.ids.get? name

/-- The display name listed for an identifier. -/
def name? (t : Names) (id : Nat) : Option String := t.names.get? id

/-- The number of distinct identifiers. -/
def size (t : Names) : Nat := t.names.size

/-- Whether no identifier is listed. -/
def isEmpty (t : Names) : Bool := t.names.isEmpty

/-- Whether two tables list the same. -/
def agrees (s t : Names) : Bool := s.ids.agrees t.ids && s.names.agrees t.names

end Names

end Switchboard.Packet
