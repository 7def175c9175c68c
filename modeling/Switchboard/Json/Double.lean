/-!
# Natural numbers as doubles

A double keeps the 53 leading bits of a number, so a large one is rounded when it becomes a double.

**Rounding.** To the nearest double, and to the one with an even significand if two are as near.

**Range.** The doubles end below `2 ^ 1024`; `limit` is half a step beyond the last of them, where
rounding begins to give infinity.
-/

namespace Switchboard.Json.Double

/-- The distance between the doubles around a number, if it is not too small for one to lie between
them. -/
def step (n : Nat) : Nat := Nat.pow 2 (Nat.log2 n - 52)

/-- The double nearest to a number below `limit`, or to any number if doubles had no end. -/
def nearest (n : Nat) : Nat :=
  let quotient := n / step n
  let twice := 2 * (n % step n)
  if step n < twice || (twice == step n && quotient % 2 == 1) then (quotient + 1) * step n
  else quotient * step n

/-- The least number that rounds to infinity. -/
def limit : Nat := Nat.pow 2 1024 - Nat.pow 2 970

/-- Whether the product of two numbers is finite if they are rounded first and it is rounded too. -/
def productIsFinite (a b : Nat) : Bool := decide (nearest a * nearest b < limit)

end Switchboard.Json.Double
