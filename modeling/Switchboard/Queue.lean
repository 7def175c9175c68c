import Switchboard.Buffer

/-!
# Queues on which callers wait

A bounded buffer whose full side makes pushes wait and whose empty side makes pops wait. A call
that cannot go on is *parked*: it becomes a value in the queue's state, and a later operation
releases it.

**Who is served.** Parked pushes and parked pops stand in two lines, served in order of arrival.
Taking a value out lets in the push that has waited longest; storing a value serves the pop that
has waited longest.

**Settled states.** Every operation leaves the queue settled: a push is parked only on a full open
queue and a pop only on an empty open one. So the two lines are never both occupied.

**Shutting.** Closing or retiring releases everyone: pushes with `false`, pops with nothing.

The callers of pushes are named by a type `π`, those of pops by a type `ρ`.
-/

namespace Switchboard

/-- What a call that may wait comes to at once. -/
inductive Outcome (β : Type) where
  /-- The call returned. -/
  | returned (value : β)
  /-- The call waits; a later operation releases it. -/
  | parked
deriving DecidableEq, Repr

/-- A parked call that has returned. -/
inductive Release (π ρ α : Type) where
  /-- A push returned; `accepted` says whether its value was stored. -/
  | pushed (caller : π) (accepted : Bool)
  /-- A pop returned with the value taken, or with none because the queue is shut and empty. -/
  | popped (caller : ρ) (value : Option α)
deriving DecidableEq, Repr

/-- A bounded buffer and the calls parked on it, both lines in order of arrival. -/
structure Queue (π ρ α : Type) where
  buffer : Buffer α
  pushers : Fifo (π × α)
  poppers : Fifo ρ

namespace Queue

variable {π ρ α β : Type}

/-- The result of an operation: the queue after it, what the call came to, and the calls it
released, in order. -/
structure Reply (π ρ α β : Type) where
  queue : Queue π ρ α
  result : β
  released : List (Release π ρ α)

/-- An open queue without values; a capacity of zero counts as one. -/
def new (capacity : Nat) : Queue π ρ α := ⟨.new capacity, ∅, ∅⟩

/-- The largest number of stored values. -/
def capacity (q : Queue π ρ α) : Nat := q.buffer.capacity

/-- The number of stored values. -/
def size (q : Queue π ρ α) : Nat := q.buffer.size

/-- Whether no value is stored. -/
def isEmpty (q : Queue π ρ α) : Bool := q.buffer.items.isEmpty

/-- Whether pushes are refused. -/
def isClosed (q : Queue π ρ α) : Bool := q.buffer.closed

/-- How a queue is shown. -/
def describe (q : Queue π ρ α) : String := q.buffer.describe

/-! ## One parked call goes on -/

/-- Give the oldest stored value to the pop that has waited longest, if there are both. -/
def serve (q : Queue π ρ α) : Queue π ρ α × List (Release π ρ α) :=
  match q.poppers.pop?, q.buffer.pop? with
  | some (caller, poppers), some (v, buffer) =>
    ({ q with buffer, poppers }, [.popped caller (some v)])
  | _, _ => (q, [])

/-- Store the value of the push that has waited longest, if there is one and room for it. -/
def letIn (q : Queue π ρ α) : Queue π ρ α × List (Release π ρ α) :=
  match q.pushers.pop? with
  | some ((caller, v), pushers) =>
    if q.buffer.hasRoom then
      ({ q with buffer := q.buffer.add v, pushers }, [.pushed caller true])
    else (q, [])
  | none => (q, [])

/-! ## The operations -/

/-- Store a value, waiting while the queue is full. The result is `false` on a shut queue. -/
def push (q : Queue π ρ α) (caller : π) (v : α) : Reply π ρ α (Outcome Bool) :=
  if q.isClosed then ⟨q, .returned false, []⟩
  else if q.buffer.hasRoom then
    let (q', released) := serve { q with buffer := q.buffer.add v }
    ⟨q', .returned true, released⟩
  else ⟨{ q with pushers := q.pushers.push (caller, v) }, .parked, []⟩

/-- Store a value without waiting; a refused value comes back with the reason. -/
def tryPush (q : Queue π ρ α) (v : α) : Reply π ρ α (Except (Refused α) Unit) :=
  match q.buffer.tryPush v with
  | .error refused => ⟨q, .error refused, []⟩
  | .ok buffer =>
    let (q', released) := serve { q with buffer }
    ⟨q', .ok (), released⟩

/-- Take the oldest value, waiting while the queue is empty. There is none on a queue that is shut
and empty. -/
def pop (q : Queue π ρ α) (caller : ρ) : Reply π ρ α (Outcome (Option α)) :=
  match q.buffer.pop? with
  | some (v, buffer) =>
    let (q', released) := letIn { q with buffer }
    ⟨q', .returned (some v), released⟩
  | none =>
    if q.isClosed then ⟨q, .returned none, []⟩
    else ⟨{ q with poppers := q.poppers.push caller }, .parked, []⟩

/-- Take the oldest value if there is one. -/
def tryPop (q : Queue π ρ α) : Reply π ρ α (Option α) :=
  match q.buffer.pop? with
  | some (v, buffer) =>
    let (q', released) := letIn { q with buffer }
    ⟨q', some v, released⟩
  | none => ⟨q, none, []⟩

/-- Every parked call, released by shutting: pushes without storing, pops without a value. -/
def dismissed (q : Queue π ρ α) : List (Release π ρ α) :=
  q.pushers.toList.map (fun p => .pushed p.1 false) ++ q.poppers.toList.map (.popped · none)

/-- Refuse further values, discard the stored ones and release everyone. -/
def close (q : Queue π ρ α) : Reply π ρ α Unit :=
  ⟨⟨q.buffer.close, ∅, ∅⟩, (), q.dismissed⟩

/-- Refuse further values, keep the stored ones and release everyone. Nothing changes on a queue
that is shut already. -/
def retire (q : Queue π ρ α) : Reply π ρ α Unit :=
  if q.isClosed then ⟨q, (), []⟩ else ⟨⟨q.buffer.retire, ∅, ∅⟩, (), q.dismissed⟩

/-! ## What an operation comes to -/

section operations

variable {q q' : Queue π ρ α} {buffer : Buffer α} {released : List (Release π ρ α)} {v : α}
  {caller : π} {taker : ρ}

theorem serve_of_nobody (hnil : q.poppers.toList = []) : q.serve = (q, []) := by
  simp only [serve, Fifo.pop?_of_toList_nil hnil]

theorem serve_of_waiting {poppers : Fifo ρ} (htaker : q.poppers.pop? = some (taker, poppers))
    (hpop : q.buffer.pop? = some (v, buffer)) :
    q.serve = ({ q with buffer, poppers }, [.popped taker (some v)]) := by
  simp only [serve, htaker, hpop]

theorem letIn_of_nobody (hnil : q.pushers.toList = []) : q.letIn = (q, []) := by
  simp only [letIn, Fifo.pop?_of_toList_nil hnil]

theorem letIn_of_waiting {pushers : Fifo (π × α)}
    (hpush : q.pushers.pop? = some ((caller, v), pushers)) (hroom : q.buffer.hasRoom = true) :
    q.letIn = ({ q with buffer := q.buffer.add v, pushers }, [.pushed caller true]) := by
  simp only [letIn, hpush, hroom, if_true]

theorem push_of_shut (hc : q.isClosed = true) : q.push caller v = ⟨q, .returned false, []⟩ :=
  if_pos hc

theorem push_of_room (hc : q.isClosed = false) (hroom : q.buffer.hasRoom = true)
    (hserve : serve { q with buffer := q.buffer.add v } = (q', released)) :
    q.push caller v = ⟨q', .returned true, released⟩ := by
  rw [push, hc, if_neg Bool.false_ne_true, if_pos hroom]
  simp only [hserve]

theorem push_of_full (hc : q.isClosed = false) (hfull : q.buffer.hasRoom = false) :
    q.push caller v = ⟨{ q with pushers := q.pushers.push (caller, v) }, .parked, []⟩ := by
  rw [push, hc, if_neg Bool.false_ne_true, hfull, if_neg Bool.false_ne_true]

theorem tryPush_of_shut (hc : q.isClosed = true) : q.tryPush v = ⟨q, .error ⟨.closed, v⟩, []⟩ := by
  have hrefused : q.buffer.tryPush v = .error ⟨.closed, v⟩ := if_pos hc
  rw [tryPush, hrefused]

theorem tryPush_of_room (hc : q.isClosed = false) (hroom : q.buffer.hasRoom = true)
    (hserve : serve { q with buffer := q.buffer.add v } = (q', released)) :
    q.tryPush v = ⟨q', .ok (), released⟩ := by
  have hstored : q.buffer.tryPush v = .ok (q.buffer.add v) := by
    rw [Buffer.tryPush, show q.buffer.closed = false from hc, if_neg Bool.false_ne_true,
      if_pos hroom]
  rw [tryPush, hstored]
  simp only [hserve]

theorem tryPush_of_full (hc : q.isClosed = false) (hfull : q.buffer.hasRoom = false) :
    q.tryPush v = ⟨q, .error ⟨.full, v⟩, []⟩ := by
  have hrefused : q.buffer.tryPush v = .error ⟨.full, v⟩ := by
    rw [Buffer.tryPush, show q.buffer.closed = false from hc, if_neg Bool.false_ne_true, hfull,
      if_neg Bool.false_ne_true]
  rw [tryPush, hrefused]

theorem pop_of_value (hpop : q.buffer.pop? = some (v, buffer))
    (hlet : letIn { q with buffer } = (q', released)) :
    q.pop taker = ⟨q', .returned (some v), released⟩ := by
  simp only [pop, hpop, hlet]

theorem pop_of_shut (hnil : q.buffer.items.toList = []) (hc : q.isClosed = true) :
    q.pop taker = ⟨q, .returned none, []⟩ := by
  simp only [pop, Buffer.pop?_of_toList_nil hnil, hc, if_true]

theorem pop_of_open (hnil : q.buffer.items.toList = []) (hc : q.isClosed = false) :
    q.pop taker = ⟨{ q with poppers := q.poppers.push taker }, .parked, []⟩ := by
  simp only [pop, Buffer.pop?_of_toList_nil hnil, hc, Bool.false_eq_true, if_false]

theorem tryPop_of_value (hpop : q.buffer.pop? = some (v, buffer))
    (hlet : letIn { q with buffer } = (q', released)) : q.tryPop = ⟨q', some v, released⟩ := by
  simp only [tryPop, hpop, hlet]

theorem tryPop_of_empty (hnil : q.buffer.items.toList = []) : q.tryPop = ⟨q, none, []⟩ := by
  simp only [tryPop, Buffer.pop?_of_toList_nil hnil]

theorem retire_of_shut (hc : q.isClosed = true) : q.retire = ⟨q, (), []⟩ := if_pos hc

theorem retire_of_open (hc : q.isClosed = false) :
    q.retire = ⟨⟨q.buffer.retire, ∅, ∅⟩, (), q.dismissed⟩ :=
  if_neg (by rw [hc]; exact Bool.false_ne_true)

end operations

end Queue

end Switchboard
