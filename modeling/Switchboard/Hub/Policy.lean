import Switchboard.Text.Blank

/-!
# Delivery policies

What a hub does for a subscriber whose queue is full: wait for room, or drop the value for that
subscriber alone.

**Names.** A policy is written in lower case. Reading one ignores ASCII case and white space at
both ends; anything else is refused with the text that was read.
-/

namespace Switchboard

/-- How a hub treats a subscriber whose queue is full. -/
inductive Policy where
  /-- A publish waits for room, so every accepted value is delivered. -/
  | reliable
  /-- A publish never waits; a full queue misses the value. -/
  | lossy
deriving DecidableEq, Repr, Inhabited

namespace Policy

/-- The name of a policy as it is written. -/
def name : Policy → String
  | reliable => "reliable"
  | lossy => "lossy"

/-- The name of a policy in texts for a reader. -/
def title : Policy → String
  | reliable => "Reliable"
  | lossy => "Lossy"

/-- A text that names no policy, trimmed and in lower case. -/
structure Unknown where
  text : String
deriving DecidableEq, Repr

/-- The wording of a failed reading. -/
def Unknown.message (u : Unknown) : String := "unknown delivery policy: " ++ u.text

/-- Read a policy: its name up to ASCII case and white space at the ends. -/
def read (s : String) : Except Unknown Policy :=
  let word := Text.lowerAscii (Text.trim s)
  if word = reliable.name then .ok reliable
  else if word = lossy.name then .ok lossy
  else .error ⟨word⟩

end Policy

end Switchboard
