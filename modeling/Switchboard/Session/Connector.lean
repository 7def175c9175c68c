import Switchboard.Packet.Catalog
import Switchboard.Session.Roster

/-!
# Connectors

The collaborator that establishes connections and tears them down, scripted: it can be told to
fail, and its connections end when they are told to.

**Connections.** Each successful establish gives the connection the next serial number and a
termination signal that is pending until the connection ends.

**Signals.** A pending signal goes away in one of two ways: the latest one is taken, to be sent or
dropped, or its connection is torn down.
-/

namespace Switchboard

/-- A connection is named by the serial number of its establish, counting from one. -/
abbrev Serial := Nat

/-- A scripted connector. -/
structure Connector where
  roster : Roster
  catalog : List Packet.Entry
  /-- The connections whose termination signal is pending, oldest first. -/
  pending : List Serial
  lastSerial : Serial
  failEstablish : Bool
  failTeardown : Bool
  /-- The calls to `establish` so far. -/
  establishCalls : Nat
  /-- The connections passed to `teardown` so far, latest first. -/
  tornDown : List Serial

namespace Connector

/-- A connector that has established nothing. -/
def new (players : List Player) (catalog : List Packet.Entry) : Connector :=
  ⟨⟨players, false⟩, catalog, [], 0, false, false, 0, []⟩

/-- The fault of a failed establish. -/
def rejected : Fault := .plain "authentication rejected"

/-- The fault of a failed teardown. -/
def leaveFailed : Fault := .plain "leave failed"

/-- Establish a connection, unless told to fail. -/
def establish (c : Connector) : Connector × Except Fault Serial :=
  let c := { c with establishCalls := c.establishCalls + 1 }
  if c.failEstablish then (c, .error rejected)
  else
    let serial := c.lastSerial + 1
    ({ c with lastSerial := serial, pending := c.pending ++ [serial] }, .ok serial)

/-- Tear a connection down. Its signal goes away even if the teardown reports a fault. -/
def teardown (c : Connector) (serial : Serial) : Connector × Option Fault :=
  ({ c with tornDown := serial :: c.tornDown, pending := c.pending.filter (· != serial) },
    if c.failTeardown then some leaveFailed else none)

/-- Take away the signal of the connection established last among those pending. -/
def takeLatest (c : Connector) : Connector × Option Serial :=
  match c.pending.max? with
  | none => (c, none)
  | some serial => ({ c with pending := c.pending.filter (· != serial) }, some serial)

/-- The number of pending signals. -/
def liveSessions (c : Connector) : Nat := c.pending.length

/-- The calls to `teardown` so far. -/
def teardownCalls (c : Connector) : Nat := c.tornDown.length

end Connector

end Switchboard
