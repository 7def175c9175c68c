import Switchboard.Proofs.Session.Steps

/-!
# Two faces of a session

A session is looked at from two sides, and most of what happens to it touches one of them only.

**Life** (`life`). The connector's connections, the installed session and its watches, the message
hub, and who holds the state.

**Trail** (`trail`). The cycles with their disconnect hubs, the observers, and the receives of
causes that have returned.
-/

namespace Switchboard

/-- A watch after its session's signal went away. -/
def Watch.fire (session : Serial) (cause : Cause) (w : Watch) : Watch :=
  if w.session = session && w.fired.isNone then { w with fired := some cause } else w

/-- A watch after a publish returned. -/
def Watch.start (who : LifecycleCall) (w : Watch) : Watch :=
  match who with
  | .connect _ session => if w.session = session then { w with running := true } else w
  | .disconnect .. | .termination _ => w

namespace Session

/-! ## Life -/

/-- The serial of the installed session. -/
def installed (s : Session) : Option Serial := s.active.map (·.session)

/-- The side of connections and sessions. -/
structure Life where
  pending : List Serial
  lastSerial : Serial
  tornDown : List Serial
  installed : Option Serial
  watches : List Watch
  messages : Hub LifecycleCall Nat Message
  hasHandle : Bool
  released : Bool

def life (s : Session) : Life where
  pending := s.connector.pending
  lastSerial := s.connector.lastSerial
  tornDown := s.connector.tornDown
  installed := s.installed
  watches := s.watches
  messages := s.messages
  hasHandle := s.hasHandle
  released := s.released

/-- After the teardown of a connection. -/
def Life.tear (l : Life) (session : Serial) : Life :=
  { l with
    pending := l.pending.filter (· != session)
    tornDown := session :: l.tornDown
    watches := l.watches.map (·.fire session .signalLost) }

/-- After the return of a publish. -/
def Life.start (l : Life) (who : LifecycleCall) : Life :=
  { l with watches := l.watches.map (·.start who) }

section life

variable (s : Session)

theorem life_setCycle (c : Cycle) : (s.setCycle c).life = s.life := by
  unfold setCycle
  split <;> rfl

theorem life_leaveCycle (number : Nat) (id : SubscriptionId) :
    (s.leaveCycle number id).life = s.life := by
  unfold leaveCycle
  split
  · rfl
  · exact life_setCycle s _

theorem life_observe (name : String) (cause : Option Cause) :
    (s.observe name cause).life = s.life := by
  unfold observe
  split
  · rfl
  · rename_i o _
    have hleave : ∀ s' : Session, s'.life = s.life → ∀ o' : Observer,
        (if cause.isSome && o.stopAfter == some (o.causes ++ cause.toList).length
          then s'.setObserver { o' with subscription := none }
          else s'.subscribeObserver o').life = s.life := by
      intro s' hs' o'
      split <;> exact hs'
    cases ho : o.subscription with
    | none => exact hleave s rfl _
    | some at' => exact hleave _ (life_leaveCycle s _ _) _

theorem life_readCauses (received : List (CauseReader × Option Cause)) :
    (s.readCauses received).life = s.life := by
  induction received generalizing s with
  | nil => rfl
  | cons r rest ih =>
    refine (ih _).trans ?_
    obtain ⟨_ | name, cause⟩ := r
    · rfl
    · exact life_observe s name cause

/-- The turn of a cycle replaces the installed session. -/
theorem life_turnCycle (cause : Option Cause) (active : Option Active) :
    (s.turnCycle cause active).life = { s.life with installed := active.map (·.session) } :=
  life_readCauses _ _

theorem life_readMessages (received : List (Nat × Option Message)) :
    (s.readMessages received).life = s.life := by
  induction received generalizing s with
  | nil => rfl
  | cons r rest ih => exact ih _

theorem life_teardown (session : Serial) : (s.teardown session).1.life = s.life.tear session := rfl

theorem life_published (who : LifecycleCall) : (s.published who).life = s.life.start who := by
  cases who with
  | connect call session => rfl
  | disconnect call fault =>
    exact congrArg (fun ws => { s.life with watches := ws }) (List.map_id _).symm
  | termination session =>
    exact congrArg (fun ws => { s.life with watches := ws }) (List.map_id _).symm

theorem life_resumeCall (who : LifecycleCall) : (s.resumeCall who).life = s.life.start who := by
  rw [← life_published]
  cases who <;> rfl

end life

/-! ## Trail -/

/-- A returned receive of a cause. -/
def causeOf : Completion → Option (Nat × Option Cause)
  | .cause call cause => some (call, cause)
  | _ => none

/-- The side of cycles and causes. -/
structure Trail where
  settings : Settings
  number : Nat
  hub? : Nat → Option (Hub Unit CauseReader Cause)
  observers : List Observer
  released : Bool
  answered : List (Nat × Option Cause)

def trail (s : Session) : Trail where
  settings := s.settings
  number := s.cycle.number
  hub? number := (s.cycle? number).map (·.disconnects)
  observers := s.observers
  released := s.released
  answered := s.completions.filterMap causeOf

section trail

variable (s : Session)

theorem trail_complete {c : Completion} (hc : causeOf c = none) : (s.complete c).trail = s.trail := by
  have hnone : (s.completions ++ [c]).filterMap causeOf = s.completions.filterMap causeOf := by
    rw [List.filterMap_append, List.filterMap_cons, hc]
    exact List.append_nil _
  exact congrArg (fun a => { s.trail with answered := a }) hnone

theorem trail_readMessages (received : List (Nat × Option Message)) :
    (s.readMessages received).trail = s.trail := by
  induction received generalizing s with
  | nil => rfl
  | cons r rest ih => exact (ih _).trans (trail_complete s rfl)

theorem trail_published (who : LifecycleCall) : (s.published who).trail = s.trail := by
  cases who <;> rfl

theorem trail_resumeCall (who : LifecycleCall) : (s.resumeCall who).trail = s.trail := by
  have hpub := trail_published s who
  cases who with
  | connect call session => exact (trail_complete _ rfl).trans hpub
  | disconnect call fault => exact (trail_complete _ rfl).trans hpub
  | termination session => exact hpub

theorem trail_announce (who : LifecycleCall) (m : Message) : (s.announce who m).1.trail = s.trail := by
  have hread := trail_readMessages { s with messages := (s.messages.publish who m).hub }
    (s.messages.publish who m).received
  simp only [announce]
  cases (s.messages.publish who m).result with
  | returned n => exact (trail_published _ who).trans hread
  | parked => exact hread

theorem trail_teardown (session : Serial) : (s.teardown session).1.trail = s.trail := rfl

end trail

end Session

end Switchboard
