import Switchboard.Fifo
import Switchboard.Text.Quoted

/-!
# Bounded buffers

A first-in first-out store with a fixed capacity and two ways to shut it.

**Room.** A buffer holds at most `capacity` values; a requested capacity of zero counts as one.

**Shutting.** `retire` refuses new values and keeps what is stored, `close` also discards it.
Closing a retired buffer discards; retiring a closed one changes nothing.
-/

namespace Switchboard

/-- Why a buffer did not take a value at once. -/
inductive PushError where
  /-- The buffer is at capacity. -/
  | full
  /-- The buffer is shut. -/
  | closed
deriving DecidableEq, Repr

/-- The wording of a refusal. -/
def PushError.message : PushError → String
  | .full => "queue is full"
  | .closed => "queue is closed"

/-- A refused value together with the reason. -/
structure Refused (α : Type) where
  reason : PushError
  value : α
deriving DecidableEq, Repr

/-- A store for at most `capacity` values. -/
structure Buffer (α : Type) where
  capacity : Nat
  items : Fifo α
  closed : Bool

namespace Buffer

variable {α : Type}

/-- An open buffer without values; a capacity of zero counts as one. -/
def new (capacity : Nat) : Buffer α := ⟨max capacity 1, ∅, false⟩

/-- The number of stored values. -/
def size (b : Buffer α) : Nat := b.items.size

/-- Whether another value fits. -/
def hasRoom (b : Buffer α) : Bool := b.items.size < b.capacity

/-- Store a value behind all others. -/
def add (b : Buffer α) (v : α) : Buffer α := { b with items := b.items.push v }

/-- The oldest value and the buffer without it. -/
def pop? (b : Buffer α) : Option (α × Buffer α) :=
  b.items.pop?.map fun p => (p.1, { b with items := p.2 })

/-- Store a value unless the buffer is shut or full; being shut is the first reason given. -/
def tryPush (b : Buffer α) (v : α) : Except (Refused α) (Buffer α) :=
  if b.closed then .error ⟨.closed, v⟩
  else if b.hasRoom then .ok (b.add v)
  else .error ⟨.full, v⟩

/-- Refuse further values and discard the stored ones. -/
def close (b : Buffer α) : Buffer α := { b with items := ∅, closed := true }

/-- Refuse further values and keep the stored ones. -/
def retire (b : Buffer α) : Buffer α := { b with closed := true }

/-- How a buffer is shown: its fill level, its capacity and whether it is shut. -/
def describe (b : Buffer α) : String :=
  Text.record "BoundedQueue" [("len", toString b.size), ("capacity", toString b.capacity),
    ("closed", Text.showBool b.closed)]

/-! ## Taking the oldest value -/

/-- A buffer with a value in it gives up the oldest. -/
theorem exists_pop?_of_toList {b : Buffer α} {v : α} {rest : List α}
    (h : b.items.toList = v :: rest) :
    ∃ b', b.pop? = some (v, b') ∧ b'.items.toList = rest ∧ b'.capacity = b.capacity ∧
      b'.closed = b.closed ∧ b.items.size = b'.items.size + 1 := by
  obtain ⟨items, hpop, hitems⟩ := Fifo.exists_pop?_of_toList h
  refine ⟨{ b with items }, by rw [pop?, hpop]; rfl, hitems, rfl, rfl, ?_⟩
  rw [Fifo.size_eq_length, Fifo.size_eq_length, h, hitems, List.length_cons]

theorem pop?_of_toList_nil {b : Buffer α} (h : b.items.toList = []) : b.pop? = none := by
  rw [pop?, Fifo.pop?_of_toList_nil h]
  rfl

end Buffer

end Switchboard
