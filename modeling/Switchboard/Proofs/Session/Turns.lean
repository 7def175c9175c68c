import Switchboard.Proofs.Session.Mail

/-!
# The turns of a session

Every step of a run comes apart into a few kinds of turns, each of which leaves a state of which
something can be said: between two turns every connection is accounted for, and every cycle is in
order.

**Scenes.** Besides the state, a scene holds the watches that are about to go on, and what has been
seen of the run: the handles given out, the signals ended and the causes received at once.

**Two faces.** A turn is described by what it does to the life and the trail of the state. Those
that touch only one of them say that the other stays.
-/

namespace Switchboard.Session

open Hub (Use)

/-- A session in the middle of a step. -/
structure Scene where
  session : Session
  /-- The watches about to go on. -/
  ready : List Watch
  handles : List CauseHandle
  signals : List (Serial × Cause)
  taken : List (CauseHandle × Cause)

/-- The same scene with another state. -/
def Scene.on (t : Scene) (s : Session) : Scene := { t with session := s }

namespace Life

/-- After a successful establish. -/
def establish (l : Life) : Life :=
  { l with lastSerial := l.lastSerial + 1, pending := l.pending ++ [l.lastSerial + 1] }

/-- After the connection established last was installed. -/
def install (l : Life) : Life :=
  { l with
    installed := some l.lastSerial
    watches := l.watches ++ [⟨l.lastSerial, false, none⟩] }

/-- After the signal of a session was taken away with a cause. -/
def signal (l : Life) (session : Serial) (cause : Cause) : Life :=
  { l with
    pending := l.pending.filter (· != session)
    watches := l.watches.map (·.fire session cause) }

/-- After the installed session ended. -/
def leave (l : Life) (session : Serial) : Life := { l with installed := none }.tear session

/-- After the last holder let go. -/
def release (l : Life) : Life :=
  { l.installed.elim l l.leave with
    messages := l.messages.close.hub
    watches := []
    released := true }

end Life

/-- Whether a watch has nothing left to wait for. -/
def isReady (w : Watch) : Bool := w.running && w.fired.isSome

/-- One turn in a step, where `owner` says on which handle a call was made. -/
inductive Turn (step : Step) (owner : Nat → Option CauseHandle) : Scene → Scene → Prop
  /-- Nothing happens that matters here. -/
  | aside {t : Scene} {s : Session} :
      s.life = t.session.life → s.trail = t.session.trail → Turn step owner t (t.on s)
  /-- A holder lets go. -/
  | letGo {t : Scene} {s : Session} {b : Bool} :
      (step = .disown ∨ ∃ name, step = .dropClone name) →
      s.life = { t.session.life with hasHandle := b } → (b = true → t.session.hasHandle = true) →
      s.trail = t.session.trail → Turn step owner t (t.on s)
  /-- Lifecycle messages are published and passed on. -/
  | mail {t : Scene} {s : Session} {hub : Hub LifecycleCall Nat Message}
      {called returned : List LifecycleCall} :
      Passed t.session.messages hub called returned →
      s.life = returned.foldl Life.start { t.session.life with messages := hub } →
      s.trail = t.session.trail → Turn step owner t (t.on s)
  /-- A connect loses to the session installed. -/
  | reject {t : Scene} {s : Session} :
      s.life = t.session.life.establish.tear (t.session.life.lastSerial + 1) →
      s.trail = t.session.trail → Turn step owner t (t.on s)
  /-- A connect installs its session, and its message is published. -/
  | join {t : Scene} {s s₀ : Session} {active : Active} {call : Nat}
      {hub : Hub LifecycleCall Nat Message} {returned : List LifecycleCall} :
      step.Connects → t.session.hasHandle = true → t.session.installed = none →
      Passed t.session.messages hub [.connect call (t.session.life.lastSerial + 1)] returned →
      s.life = returned.foldl Life.start { t.session.life.establish.install with messages := hub } →
      s₀.trail = t.session.trail → s.trail = (s₀.turnCycle none (some active)).trail →
      Turn step owner t (t.on s)
  /-- The signal of a session ends. -/
  | signal {t : Scene} {s : Session} {session : Serial} {cause : Cause} :
      session ∈ t.session.life.pending → s.life = t.session.life.signal session cause →
      s.trail = t.session.trail →
      Turn step owner t { t with session := s, signals := t.signals ++ [(session, cause)] }
  /-- A disconnect ends the installed session. -/
  | leave {t : Scene} {s s₀ : Session} {session : Serial} :
      step = .disconnect → t.session.installed = some session →
      s.life = t.session.life.leave session → s₀.trail = t.session.trail →
      s.trail = (s₀.turnCycle (some .cancelled) none).trail → Turn step owner t (t.on s)
  /-- The watches that have nothing left to wait for step forward. -/
  | gather {t : Scene} :
      t.ready = [] →
      Turn step owner t
        { t with
          session := { t.session with watches := t.session.watches.filter (!isReady ·) }
          ready := t.session.watches.filter isReady }
  /-- A watch ends the installed session. -/
  | watch {t : Scene} {s s₀ : Session} {w : Watch} {rest : List Watch} {cause : Cause} :
      t.ready = w :: rest → w.fired = some cause → t.session.installed = some w.session →
      s.life = t.session.life.leave w.session → s₀.trail = t.session.trail →
      s.trail = (s₀.turnCycle (some cause) none).trail →
      Turn step owner t { t with session := s, ready := rest }
  /-- The session of a watch is not the one installed. -/
  | stale {t : Scene} {w : Watch} {rest : List Watch} :
      t.ready = w :: rest → t.session.installed ≠ some w.session →
      Turn step owner t { t with ready := rest }
  /-- The last holder has let go. -/
  | release {t : Scene} :
      t.ready = [] → t.session.released = false → t.session.isHeld = false →
      Turn step owner t (t.on t.session.release)
  /-- A handle for a cause is used. -/
  | causes {t : Scene} {handle : CauseHandle} {use : Use} {call : Nat} {c : Cycle} :
      step = .causes handle use → handle ∈ t.handles →
      owner call = some handle → t.session.cycle? handle.cycle = some c →
      Turn step owner t
        { t with
          session := (t.session.setCycle
            { c with disconnects := (use.on c.disconnects handle.id (.call call)).hub }).readCauses
              (use.on c.disconnects handle.id (.call call)).received
          taken := t.taken ++
            (use.on c.disconnects handle.id (.call call)).result.map (handle, ·) }
  /-- A handle for the cause of the current cycle is given out. -/
  | follow {t : Scene} (n : Nat) :
      t.session.hasHandle = true →
      Turn step owner t
        { t with
          session := (t.session.subscribeCauses n).1
          handles := t.handles ++ [(t.session.subscribeCauses n).2] }
  /-- An observer gives up its subscription. -/
  | stop {t : Scene} {o : Observer} {number : Nat} {id : SubscriptionId} :
      step.Stops o.name → t.session.observer? o.name = some o →
      o.subscription = some (number, id) →
      Turn step owner t
        (t.on ((t.session.leaveCycle number id).setObserver { o with subscription := none }))
  /-- An observer that has stopped is forgotten. -/
  | forget {t : Scene} (name : String) :
      step.Stops name → (∀ o ∈ t.session.observers, o.name = name → o.subscription = none) →
      Turn step owner t
        (t.on { t.session with observers := t.session.observers.filter (·.name != name) })
  /-- A new observer follows the current cycle. -/
  | enroll {t : Scene} {o : Observer} :
      step = .startObserver o.name o.stopAfter → t.session.hasHandle = true →
      (∀ p ∈ t.session.observers, p.name ≠ o.name) →
      o.subscription = none →
      Turn step owner t
        (t.on ({ t.session with observers := t.session.observers ++ [o] }.subscribeObserver o))

/-- Some turns one after another. -/
abbrev Turns (step : Step) (owner : Nat → Option CauseHandle) : Scene → Scene → Prop :=
  Relation.ReflTransGen (Turn step owner)

end Switchboard.Session
