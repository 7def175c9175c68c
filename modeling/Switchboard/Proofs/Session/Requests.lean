import Switchboard.Proofs.Session.Faces

/-!
# Requests

What a request for players or a command leaves, and what it answers.

**Requests for players** (`snapshotPlayers_cases`, `findPlayerById_cases`,
`findPlayerByName_cases`). How each may end, together with the answer.

**Writing** (`Step.written`). What a step writes in the registry can be said without the session: it
depends on the roster, on whether a session is installed, and on what is there already. A request
for players changes nothing besides (`snapshotPlayers_eq`, `findPlayerById_eq`,
`findPlayerByName_eq`).
-/

namespace Switchboard.Session

section requests

variable {s : Session}

/-! ## Requests for players -/

/-- Everyone online, unless no session is installed or the roster fails. -/
theorem snapshotPlayers_cases (s : Session) :
    (s.active = none ∧ s.snapshotPlayers = (s, .error .notConnected)) ∨
      (s.active ≠ none ∧ s.connector.roster.failing = true ∧
        s.snapshotPlayers = (s, .error (.collaborator Roster.unavailable))) ∨
      (s.active ≠ none ∧ s.connector.roster.failing = false ∧
        s.snapshotPlayers =
          (s.setRegistry (cacheAll s.registry s.connector.roster.players),
            .ok s.connector.roster.players)) := by
  unfold snapshotPlayers guarded
  cases ha : s.active with
  | none => exact Or.inl ⟨rfl, rfl⟩
  | some a =>
    refine Or.inr ?_
    unfold Roster.online Roster.query
    cases hfailing : s.connector.roster.failing with
    | true => exact Or.inl ⟨Option.some_ne_none a, rfl, rfl⟩
    | false => exact Or.inr ⟨Option.some_ne_none a, rfl, rfl⟩

/-- The player bound to an identifier, or else the one on the roster. -/
theorem findPlayerById_cases (s : Session) (id : String) :
    (s.active = none ∧ s.findPlayerById id = (s, .error .notConnected)) ∨
      (s.active ≠ none ∧ ∃ p, s.registry.get? id = some p ∧ s.findPlayerById id = (s, .ok p)) ∨
      (s.active ≠ none ∧ s.registry.get? id = none ∧
        ((∃ e, found id (s.connector.roster.byId id) = .error e ∧
            s.findPlayerById id = (s, .error e)) ∨
          ∃ p, found id (s.connector.roster.byId id) = .ok p ∧
            s.findPlayerById id = (s.setRegistry (s.registry.rebind id p).1, .ok p))) := by
  unfold findPlayerById guarded
  cases ha : s.active with
  | none => exact Or.inl ⟨rfl, rfl⟩
  | some a =>
    refine Or.inr ?_
    cases hbound : s.registry.get? id with
    | some p => exact Or.inl ⟨Option.some_ne_none a, p, rfl, rfl⟩
    | none =>
      refine Or.inr ⟨Option.some_ne_none a, rfl, ?_⟩
      cases hfound : found id (s.connector.roster.byId id) with
      | error e => exact Or.inl ⟨e, rfl, rfl⟩
      | ok p => exact Or.inr ⟨p, rfl, rfl⟩

theorem bindIdentity_cases (registry : Registry String Player) (p : Player) :
    (registry.bindIdentity p = (registry, .error .identifierUnavailable) ∧
        ∀ id, p.uuid = some id → id = "") ∨
      ∃ id, id ≠ "" ∧ p.uuid = some id ∧
        registry.bindIdentity p = (⟨registry.table.insert id p⟩, .ok id) := by
  unfold Registry.bindIdentity
  cases huuid : p.uuid with
  | none => exact Or.inl ⟨rfl, nofun⟩
  | some id =>
    by_cases hid : id = ""
    · rw [hid]
      exact Or.inl ⟨rfl, fun id h => (Option.some.inj h).symm⟩
    · refine Or.inr ⟨id, hid, rfl, ?_⟩
      rw [Option.filter_some, if_pos (by simpa using hid)]

/-- The player with a name on the roster, if it has an identifier. -/
theorem findPlayerByName_cases (s : Session) (name : String) :
    (s.active = none ∧ s.findPlayerByName name = (s, .error .notConnected)) ∨
      (s.active ≠ none ∧ ∃ e, found name (s.connector.roster.byName name) = .error e ∧
        s.findPlayerByName name = (s, .error e)) ∨
      (s.active ≠ none ∧ ∃ p, found name (s.connector.roster.byName name) = .ok p ∧
        ((s.registry.bindIdentity p = (s.registry, .error .identifierUnavailable) ∧
            s.findPlayerByName name = (s, .error .identifierUnavailable)) ∨
          ∃ id, id ≠ "" ∧ p.uuid = some id ∧
            s.registry.bindIdentity p = (⟨s.registry.table.insert id p⟩, .ok id) ∧
            s.findPlayerByName name = (s.setRegistry ⟨s.registry.table.insert id p⟩, .ok p))) := by
  unfold findPlayerByName guarded
  cases ha : s.active with
  | none => exact Or.inl ⟨rfl, rfl⟩
  | some a =>
    refine Or.inr ?_
    cases hfound : found name (s.connector.roster.byName name) with
    | error e => exact Or.inl ⟨Option.some_ne_none a, e, rfl, rfl⟩
    | ok p =>
      refine Or.inr ⟨Option.some_ne_none a, p, rfl, ?_⟩
      dsimp only
      rcases bindIdentity_cases s.registry p with ⟨hbind, -⟩ | ⟨id, hid, huuid, hbind⟩
      · rw [hbind]
        exact Or.inl ⟨rfl, rfl⟩
      · rw [hbind]
        exact Or.inr ⟨id, hid, huuid, rfl, rfl⟩

/-! ## What steps write -/

/-- The registry after a step on it. -/
def Step.written (roster : Roster) (connected : Bool) (r : Registry String Player) :
    Step → Registry String Player
  | snapshotPlayers =>
    if connected then
      match roster.online with
      | .ok players => cacheAll r players
      | .error _ => r
    else r
  | findPlayerById id =>
    if connected && (r.get? id).isNone then
      match found id (roster.byId id) with
      | .ok p => (r.rebind id p).1
      | .error _ => r
    else r
  | findPlayerByName name =>
    if connected then
      match found name (roster.byName name) with
      | .ok p => (r.bindIdentity p).1
      | .error _ => r
    else r
  | releasePlayer id => (r.delete id).1
  | bind key player => (r.bind key player).1
  | bindIdentity player => (r.bindIdentity player).1
  | _ => r

theorem isConnected_of_active (ha : s.active ≠ none) : s.isConnected = true :=
  Option.isSome_iff_ne_none.mpr ha

theorem snapshotPlayers_eq : s.snapshotPlayers.1 =
    s.setRegistry (Step.written s.connector.roster s.isConnected s.registry .snapshotPlayers) := by
  rcases snapshotPlayers_cases s with ⟨ha, heq⟩ | ⟨ha, hroster, heq⟩ | ⟨ha, hroster, heq⟩
  · rw [heq, isConnected, ha]
    rfl
  · rw [heq, isConnected_of_active ha, Step.written, Roster.online, Roster.query, if_pos hroster]
    rfl
  · rw [heq, isConnected_of_active ha, Step.written, Roster.online, Roster.query,
      if_neg (Bool.eq_false_iff.mp hroster)]
    rfl

theorem findPlayerById_eq (id : String) : (s.findPlayerById id).1 =
    s.setRegistry
      (Step.written s.connector.roster s.isConnected s.registry (.findPlayerById id)) := by
  rcases findPlayerById_cases s id with ⟨ha, heq⟩ | ⟨ha, p, hbound, heq⟩ |
    ⟨ha, hbound, ⟨e, hfound, heq⟩ | ⟨p, hfound, heq⟩⟩
  · rw [heq, isConnected, ha]
    rfl
  · rw [heq, isConnected_of_active ha, Step.written, hbound]
    rfl
  · rw [heq, isConnected_of_active ha, Step.written, hbound, hfound]
    rfl
  · rw [heq, isConnected_of_active ha, Step.written, hbound, hfound]
    rfl

theorem findPlayerByName_eq (name : String) : (s.findPlayerByName name).1 =
    s.setRegistry
      (Step.written s.connector.roster s.isConnected s.registry (.findPlayerByName name)) := by
  rcases findPlayerByName_cases s name with ⟨ha, heq⟩ | ⟨ha, e, hfound, heq⟩ |
    ⟨ha, p, hfound, ⟨hbind, heq⟩ | ⟨id, -, -, hbind, heq⟩⟩
  · rw [heq, isConnected, ha]
    rfl
  · rw [heq, isConnected_of_active ha, Step.written, hfound]
    rfl
  · rw [heq, isConnected_of_active ha, Step.written, hfound]
    dsimp only
    rw [hbind]
    rfl
  · rw [heq, isConnected_of_active ha, Step.written, hfound]
    dsimp only
    rw [hbind]
    rfl

/-! ## Commands -/

/-- An installed session in which some more commands were sent. -/
def sending (a : Active) (commands : List String) : Active := { a with sent := a.sent ++ commands }

theorem sendCommand_eq (command : String) : (s.sendCommand command).1 =
    { s with active := s.active.map (sending · [command]) } := by
  unfold sendCommand
  cases ha : s.active with
  | none =>
    show s = _
    rw [Option.map_none, ← ha]
  | some a => rfl

theorem installed_sendCommand (command : String) :
    (s.sendCommand command).1.installed = s.installed := by
  rw [sendCommand_eq]
  exact Option.map_map ..

theorem life_sendCommand (command : String) : (s.sendCommand command).1.life = s.life := by
  have hinstalled := installed_sendCommand (s := s) command
  rw [sendCommand_eq] at hinstalled ⊢
  exact congrArg (fun i => { s.life with installed := i }) hinstalled

theorem trail_sendCommand (command : String) : (s.sendCommand command).1.trail = s.trail := by
  rw [sendCommand_eq]
  rfl

/-! ## Registries -/

theorem trail_setRegistry (registry : Registry String Player) :
    (s.setRegistry registry).trail = s.trail := by
  refine congrArg (fun f => { s.trail with hub? := f }) (funext fun k => ?_)
  show ((s.setRegistry registry).cycle? k).map (·.disconnects) = (s.cycle? k).map (·.disconnects)
  unfold cycle?
  show Option.map _ (if s.cycle.number = k then _ else _) = _
  split
  · rfl
  · rfl

end requests

end Switchboard.Session
