import Switchboard.Text.Blank

/-!
# Display names of packets

The short name under which a packet type is listed.

**From raw to short.** White space at the ends goes first, then the leading run of the markers `*`
and `&`. A path is then cut after its last separator, a point or a double colon; if nothing follows
that separator, the whole path is kept. An entry with nothing left has no display name.
-/

namespace Switchboard.Packet

/-- The marks of a pointer or a reference type. -/
def isMarker (c : Char) : Bool := c == '*' || c == '&'

/-- A raw name without the white space at its ends and without its leading markers. -/
def bare (raw : List Char) : List Char := (Text.trimChars raw).dropWhile isMarker

/-- What follows the last separator, a point or a double colon; none if there is no separator. -/
def afterSeparator : List Char → Option (List Char)
  | [] => none
  | c :: rest =>
    match afterSeparator rest with
    | some tail => some tail
    | none =>
      if c = '.' then some rest
      else match c, rest with
        | ':', ':' :: tail => some tail
        | _, _ => none

/-- The last component of a path, or the whole path if it ends in a separator. -/
def lastComponent (path : List Char) : List Char :=
  match afterSeparator path with
  | some (c :: rest) => c :: rest
  | _ => path

/-- The display name of a raw name, unless nothing is left of it. -/
def displayName (raw : String) : Option String :=
  match lastComponent (bare raw.toList) with
  | [] => none
  | name => some (String.ofList name)

end Switchboard.Packet
