import Switchboard.Proofs.Session.Books

/-!
# The desk of a session

What a session keeps for those who ask something of it: the registries of its cycles, the installed
session with the commands sent in it, and the roster and the catalog of the connector.

**Asking** (`Step.Asks`). Only some steps write at the desk, and none of them changes the installed
session.

**Turning** (`Desk.turn`). A new cycle has an empty registry, and the session that it begins with
has sent nothing. Everything else that happens to a session leaves the desk as it is, but for the
release, which clears it of the installed session (`Desk.vacate`).
-/

namespace Switchboard.Session

/-- What is kept of a session for those who ask. -/
@[ext]
structure Desk where
  /-- The number of the current cycle. -/
  number : Nat
  /-- The registry of a cycle, by its number. -/
  registries : Nat → Option (Registry String Player)
  active : Option Active
  roster : Roster
  catalog : List Packet.Entry

def desk (s : Session) : Desk where
  number := s.cycle.number
  registries number := (s.cycle? number).map (·.registry)
  active := s.active
  roster := s.connector.roster
  catalog := s.connector.catalog

namespace Desk

/-- After a new cycle has begun, with another session installed or none. -/
def turn (d : Desk) (installed : Option Serial) : Desk :=
  { d with
    number := d.number + 1
    registries := fun k => if k = d.number + 1 then some .empty else d.registries k
    active := installed.map fun x => ⟨x, [], .ofCatalog d.catalog⟩ }

/-- After the installed session was let go of. -/
def vacate (d : Desk) : Desk := { d with active := none }

end Desk

/-- The steps that ask for something at the desk, or change the roster. -/
def Step.Asks : Step → Prop
  | setRoster _ | sendCommand _ | snapshotPlayers | findPlayerById _ | findPlayerByName _
  | releasePlayer _ | bind .. | bindIdentity _ => True
  | _ => False

section desk

variable (s : Session)

theorem desk_registries : s.desk.registries s.desk.number = some s.registry :=
  congrArg (Option.map Cycle.registry) (cycle?_number (s := s))

/-- A new cycle begins with nothing bound. -/
theorem registry_of_turn {s' : Session} {d : Desk} {installed : Option Serial}
    (h : s'.desk = d.turn installed) : s'.registry = .empty := by
  have hsome := desk_registries s'
  rw [h] at hsome
  exact (Option.some.inj ((if_pos rfl).symm.trans hsome)).symm

/-! ## Cycles -/

theorem desk_setCycle {s : Session} {k : Nat} {c : Cycle} (hc : s.cycle? k = some c)
    (h : Hub Unit CauseReader Cause) : (s.setCycle { c with disconnects := h }).desk = s.desk := by
  set d : Cycle := { c with disconnects := h } with hd
  have hsame : (s.setCycle d).active = s.active ∧ (s.setCycle d).connector = s.connector := by
    unfold setCycle
    split <;> exact ⟨rfl, rfl⟩
  refine Desk.ext (congrArg Books.number (books_setCycle s d)) (funext fun j => ?_) hsame.1
    (congrArg Connector.roster hsame.2) (congrArg Connector.catalog hsame.2)
  show ((s.setCycle d).cycle? j).map (·.registry) = (s.cycle? j).map (·.registry)
  rw [cycle?_setCycle, Option.map_map]
  cases hj : s.cycle? j with
  | none => rfl
  | some e =>
    refine congrArg some ?_
    rw [Function.comp_apply]
    split
    · rename_i hnumber
      -- A cycle is known by its number.
      have hjk : j = k := by
        rw [← number_of_cycle? hj, ← number_of_cycle? hc]
        exact hnumber
      rw [hjk, hc, Option.some.injEq] at hj
      show c.registry = e.registry
      rw [hj]
    · rfl

theorem desk_leaveCycle (number : Nat) (id : SubscriptionId) :
    (s.leaveCycle number id).desk = s.desk := by
  unfold leaveCycle
  split
  · rfl
  · rename_i hc
    exact desk_setCycle hc _

/-- The hub of the current cycle does not lie at the desk. -/
theorem desk_disconnects (hub : Hub Unit CauseReader Cause) :
    ({ s with cycle := { s.cycle with disconnects := hub } } : Session).desk = s.desk := by
  refine Desk.ext rfl (funext fun k => ?_) rfl rfl rfl
  show Option.map _ (if s.cycle.number = k then _ else _) = Option.map _ (s.cycle? k)
  unfold cycle?
  split <;> rfl

theorem desk_observe (name : String) (cause : Option Cause) :
    (s.observe name cause).desk = s.desk := by
  cases hfind : s.observer? name with
  | none => rw [observe, hfind]
  | some o =>
    have hleave : (s.unsubscribed o).desk = s.desk := by
      unfold unsubscribed
      split
      · exact desk_leaveCycle s _ _
      · rfl
    rw [observe_of_some hfind]
    split
    · exact hleave
    · exact (desk_disconnects _ _).trans hleave

theorem desk_readCauses (received : List (CauseReader × Option Cause)) :
    (s.readCauses received).desk = s.desk := by
  induction received generalizing s with
  | nil => rfl
  | cons r rest ih =>
    refine (ih _).trans ?_
    obtain ⟨_ | name, cause⟩ := r
    · rfl
    · exact desk_observe s name cause

theorem desk_turnCycle (cause : Option Cause) (active : Option Active) :
    (s.turnCycle cause active).desk = { s.desk.turn none with active } := by
  have hended : (endCycle s.cycle cause).1.number = s.cycle.number ∧
      (endCycle s.cycle cause).1.registry = s.cycle.registry := by
    cases cause <;> exact ⟨rfl, rfl⟩
  refine (desk_readCauses _ _).trans (Desk.ext rfl (funext fun k => ?_) rfl rfl rfl)
  show Option.map (·.registry) (if s.cycle.number + 1 = k then some (freshCycle _ _) else
      List.find? (·.number = k) ((endCycle s.cycle cause).1 :: s.past)) =
    if k = s.cycle.number + 1 then some .empty else (s.cycle? k).map (·.registry)
  by_cases hk : k = s.cycle.number + 1
  · rw [if_pos hk.symm, if_pos hk]
    rfl
  · rw [if_neg (Ne.symm hk), if_neg hk, List.find?_cons, hended.1, cycle?]
    by_cases hnumber : s.cycle.number = k
    · rw [decide_eq_true hnumber, if_pos hnumber]
      exact congrArg some hended.2
    · rw [decide_eq_false hnumber, if_neg hnumber]

/-! ## Messages -/

theorem desk_readMessages (received : List (Nat × Option Message)) :
    (s.readMessages received).desk = s.desk := by
  induction received generalizing s with
  | nil => rfl
  | cons r rest ih => exact ih _

theorem desk_announce (who : LifecycleCall) (m : Message) : (s.announce who m).1.desk = s.desk := by
  have hread := desk_readMessages { s with messages := (s.messages.publish who m).hub }
    (s.messages.publish who m).received
  unfold announce
  dsimp only
  cases (s.messages.publish who m).result with
  | returned n => cases who <;> exact hread
  | parked => exact hread

theorem desk_passOn (hub : Hub LifecycleCall Nat Message)
    (received : List (Nat × Option Message)) (returned : List (LifecycleCall × Nat)) :
    (s.passOn hub received returned).desk = s.desk := by
  have hresume : ∀ s : Session,
      (returned.foldl (fun s r => s.resumeCall r.1) s).desk = s.desk := by
    induction returned with
    | nil => exact fun s => rfl
    | cons r rest ih =>
      intro s
      refine (ih _).trans ?_
      obtain ⟨_ | _ | _, n⟩ := r <;> rfl
  exact (hresume _).trans (desk_readMessages _ received)

/-! ## Transitions -/

theorem desk_establish : s.establish.1.desk = s.desk := by
  cases hfail : s.connector.failEstablish with
  | true =>
    rw [establish_of_fail hfail]
    rfl
  | false =>
    rw [establish_of_ok hfail]
    rfl

theorem desk_reject (x : Serial) : (s.reject x).desk = s.desk := rfl

theorem desk_joining (call : Nat) {x : Serial} (hi : s.installed = none) :
    (s.joining call x).after.desk = s.desk.turn (some x) := by
  have hvacant : ¬ s.isConnected = true := fun h => isConnected_iff.mp h hi
  refine (desk_announce _ _ _).trans ?_
  rw [joining, install, if_neg hvacant]
  exact desk_turnCycle s none _

theorem desk_leaving (call : Nat) (x : Serial) :
    (s.leaving call x).after.desk = s.desk.turn none :=
  (desk_announce _ _ _).trans (desk_turnCycle s _ _)

theorem desk_ending (x : Serial) (cause : Cause) :
    (s.ending x cause).after.desk = s.desk.turn none :=
  (desk_announce _ _ _).trans
    (desk_turnCycle ((s.teardown x).1.record (·.teardown (s.teardown x).2)) _ _)

theorem desk_release : s.release.desk = s.desk.vacate := by
  unfold release
  dsimp only
  rw [desk_readMessages, desk_readCauses]
  cases ha : s.active with
  | none =>
    refine (desk_disconnects s s.cycle.disconnects.close.hub).trans ?_
    rw [Desk.vacate, ← ha]
    rfl
  | some a => exact congrArg Desk.vacate (desk_disconnects s s.cycle.disconnects.close.hub)

end desk

end Switchboard.Session
