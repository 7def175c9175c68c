import Switchboard.Proofs.Session.Winners

/-!
# The chronicle of a session

The changes of the installed session, in the order in which they happen.

**Transitions** (`Transition`). A session is installed by a connect (`joining`) and taken away by a
disconnect (`leaving`) or by the end of its signal (`ending`). Each of these ends a cycle and is
announced with one message, and the state on which it is announced is kept with it.

**The chronicle** (`Run.chronicle`). What happens in an operation is computed beside it, by
functions of the same recursion (`settleLog` beside `settle`, and so on), and put together over the
steps of a run.
-/

namespace Switchboard

/-- A change of the installed session, at the moment when its message is announced. -/
structure Transition where
  /-- The cycle that ends. -/
  ended : Cycle
  /-- The cause that is published in it. -/
  cause : Option Cause
  /-- The state on which the message is announced. -/
  session : Session
  caller : LifecycleCall
  message : Message

namespace Transition

/-- The state after the announcement. -/
def after (τ : Transition) : Session := (τ.session.announce τ.caller τ.message).1

/-- Whether the publish of the message returned. -/
def returned (τ : Transition) : Bool := (τ.session.announce τ.caller τ.message).2

/-- Who announces what. -/
def notice (τ : Transition) : LifecycleCall × Message := (τ.caller, τ.message)

end Transition

/-- The session that a lifecycle call installs. -/
def LifecycleCall.installs : LifecycleCall → Option Serial
  | connect _ x => some x
  | disconnect .. | termination _ => none

namespace Session

open Hub (Use)

/-! ## The three transitions -/

/-- A connect installs the connection that it had established. -/
def joining (s : Session) (call : Nat) (x : Serial) : Transition where
  ended := s.cycle
  cause := none
  session := (s.install x).1
  caller := .connect call x
  message := .status Message.connectedText

/-- A disconnect takes a session away. -/
def leaving (s : Session) (call : Nat) (x : Serial) : Transition :=
  let (s₁, fault) := (s.turnCycle (some .cancelled) none).teardown x
  { ended := s.cycle
    cause := some .cancelled
    session := (s₁.record (·.teardown fault)).record (·.disconnect .cancelled)
    caller := .disconnect call fault
    message := disconnectNotice fault }

/-- A session ends with its connection. -/
def ending (s : Session) (x : Serial) (cause : Cause) : Transition :=
  let (s₁, fault) := s.teardown x
  { ended := s.cycle
    cause := some cause
    session := ((s₁.record (·.teardown fault)).turnCycle (some cause) none).record
      (·.disconnect cause)
    caller := .termination x
    message := .connectionClosed cause }

/-! ## The chronicle of an operation -/

/-- The transitions of `endSession`. -/
def endSessionLog (s : Session) (x : Serial) (cause : Cause) : List Transition :=
  if s.installed = some x then [s.ending x cause] else []

/-- The transitions of watches that go on one after another. -/
def watchesLog : List Watch → Session → List Transition
  | [], _ => []
  | w :: rest, s =>
    match w.fired with
    | some cause => s.endSessionLog w.session cause ++ watchesLog rest (s.endSession w.session cause)
    | none => watchesLog rest s

/-- The transitions of `runWatches`. -/
def runWatchesLog (s : Session) : List Transition :=
  watchesLog (s.watches.filter isReady) { s with watches := s.watches.filter (!isReady ·) }

/-- The transitions of `settle`. -/
def settleLog (s : Session) : List Transition := s.releaseIfUnheld.runWatchesLog

/-- The transitions of `connect`. -/
def connectLog (s : Session) (call : Nat) (options : Options) : List Transition :=
  match options.validate with
  | .error _ => []
  | .ok _ =>
    match s.establish with
    | (_, .error _) => []
    | (s, .ok x) =>
      if s.isConnected then [] else s.joining call x :: (s.joining call x).after.settleLog

/-- The transitions of `connectAll`. -/
def connectAllLog (s : Session) (call : Nat) (options : Options) : (n : Nat) → List Transition
  | 0 => []
  | n + 1 => s.connectLog call options ++ (s.connect call options).1.connectAllLog call options n

/-- The transitions of `disconnect`. -/
def disconnectLog (s : Session) (call : Nat) : List Transition :=
  match s.active with
  | none => []
  | some a => s.leaving call a.session :: (s.leaving call a.session).after.settleLog

/-- The transitions of `terminate`. -/
def terminateLog (s : Session) (cause : Cause) : List Transition :=
  match s.connector.takeLatest with
  | (_, none) => []
  | (connector, some x) => (fire { s with connector } x cause).settleLog

/-- The transitions of `dropClone`. -/
def dropCloneLog (s : Session) (name : String) : List Transition :=
  if s.clones.contains name then
    settleLog { s with clones := s.clones.filter (· != name) }
  else []

/-- The transitions of `disown`. -/
def disownLog (s : Session) : List Transition := settleLog { s with owned := false }

/-- The transitions of `stopObserver`. -/
def stopObserverLog (s : Session) (name : String) : List Transition :=
  match s.observer? name with
  | none => []
  | some o =>
    match o.subscription with
    | none => []
    | some (number, id) =>
      settleLog ((s.leaveCycle number id).setObserver { o with subscription := none })

/-- The message hub has changed, and the calls whose receives and publishes returned go on. -/
def passOn (s : Session) (hub : Hub LifecycleCall Nat Message)
    (received : List (Nat × Option Message)) (returned : List (LifecycleCall × Nat)) : Session :=
  returned.foldl (fun s r => s.resumeCall r.1) (readMessages { s with messages := hub } received)

/-- The transitions of `absorb`. -/
def absorbLog {β : Type} (s : Session) (reply : Hub.Reply LifecycleCall Nat Message β) :
    List Transition :=
  (s.passOn reply.hub reply.received reply.returned).settleLog

/-- The transitions of `drainMessagesUpTo`. -/
def drainMessagesUpToLog (id : SubscriptionId) : (fuel : Nat) → Session → List Transition
  | 0, _ => []
  | fuel + 1, s =>
    s.absorbLog (s.messages.tryReceive id) ++
      match s.tryReceiveMessage id with
      | (s, .value _) => drainMessagesUpToLog id fuel s
      | (_, .empty) | (_, .ended) => []

/-- The transitions of `useMessages`. -/
def useMessagesLog (s : Session) (id : SubscriptionId) (call : Nat) : Use → List Transition
  | .receive => if s.messages.isWaiting id then [] else s.absorbLog (s.messages.receive id call)
  | .tryReceive => if s.messages.isWaiting id then [] else s.absorbLog (s.messages.tryReceive id)
  | .drain =>
    if s.messages.isWaiting id then []
    else drainMessagesUpToLog id (s.messages.backlog id + s.watches.length + 1) s
  | .cancel => s.absorbLog (s.messages.cancel id)
  | .abandon => if s.messages.isWaiting id then [] else s.absorbLog (s.messages.abandon id)

/-- The transitions of `useCauses`. -/
def useCausesLog (s : Session) (handle : CauseHandle) (call : Nat) (use : Use) : List Transition :=
  match s.cycle? handle.cycle with
  | none => []
  | some c =>
    let reply := use.on c.disconnects handle.id (.call call)
    ((s.setCycle { c with disconnects := reply.hub }).readCauses reply.received).settleLog

/-- The transitions of a step made by a call, when some handles have been given out. -/
def Step.log (s : Session) (call : Nat) (handles : List CauseHandle) : Step → List Transition
  | connect options => if s.hasHandle then s.connectLog call options else []
  | race n options => if s.hasHandle then s.connectAllLog call options n else []
  | disconnect => if s.hasHandle then s.disconnectLog call else []
  | terminate cause => s.terminateLog cause
  | dropSignal => s.terminateLog .signalLost
  | dropClone name => s.dropCloneLog name
  | disown => s.disownLog
  | startObserver name _ => if s.hasHandle then s.stopObserverLog name else []
  | stopObserver name => s.stopObserverLog name
  | dropObserver name => s.stopObserverLog name
  | messages id use => s.useMessagesLog id call use
  | causes handle use =>
    if handle ∉ handles || (use ≠ .cancel && s.isWaitingForCause handle) then []
    else s.useCausesLog handle call use
  | _ => []

/-- The transitions of a step that follows a run. -/
def Run.log (r : Run) (st : Step) : List Transition := st.log r.session r.steps.length r.handles

/-- The transitions of some steps that follow a run. -/
def Run.chronicle (r : Run) : List Step → List Transition
  | [] => []
  | st :: steps => r.log st ++ (r.next st).chronicle steps

/-- The transitions of a run. -/
def chronicle (settings : Settings) (players : List Player) (catalog : List Packet.Entry)
    (steps : List Step) : List Transition :=
  (run settings players catalog []).chronicle steps

/-! ## Operations and their transitions -/

section operations

variable {s : Session}

theorem absorb_eq {β : Type} (s : Session) (reply : Hub.Reply LifecycleCall Nat Message β) :
    s.absorb reply = (s.passOn reply.hub reply.received reply.returned).settle := rfl

theorem endSession_of_installed {x : Serial} (hi : s.installed = some x) (cause : Cause) :
    s.endSession x cause = (s.ending x cause).after ∧ s.endSessionLog x cause = [s.ending x cause] :=
  ⟨if_pos (any_active.mpr hi), if_pos hi⟩

theorem endSessionLog_of_ne {x : Serial} (hne : s.installed ≠ some x) (cause : Cause) :
    s.endSessionLog x cause = [] :=
  if_neg hne

theorem settle_announced {β : Type} (p : Session × Bool) (o o' : Outcome β) :
    (match p with
      | (s, true) => (s.settle, o)
      | (s, false) => (s.settle, o')) = (p.1.settle, if p.2 then o else o') := by
  obtain ⟨s, _ | _⟩ := p
  · rfl
  · rfl

theorem establish_of_fail (hfail : s.connector.failEstablish = true) :
    s.establish = (({ s with connector := { s.connector with
      establishCalls := s.connector.establishCalls + 1 } } : Session).record Ledger.failEstablish,
      .error (.collaborator Connector.rejected)) := by
  have hconnector : s.connector.establish = ({ s.connector with
      establishCalls := s.connector.establishCalls + 1 }, .error Connector.rejected) := if_pos hfail
  rw [establish, hconnector]

theorem establish_spec (hok : s.connector.failEstablish = false) :
    s.establish = (s.establish.1, .ok (s.connector.lastSerial + 1)) ∧
      s.establish.1.life = s.life.establish ∧ s.establish.1.trail = s.trail ∧
      s.establish.1.isHeld = s.isHeld := by
  rw [establish_of_ok hok]
  exact ⟨rfl, rfl, rfl, rfl⟩

/-- A connect comes to one of four ends. -/
theorem connect_cases (s : Session) (call : Nat) (options : Options) :
    let x := s.connector.lastSerial + 1
    let τ := s.establish.1.joining call x
    (∃ e, options.validate = .error e ∧
        s.connect call options = (s.record Ledger.refuseOptions, .returned (.error e)) ∧
        s.connectLog call options = []) ∨
      ((∃ o, options.validate = .ok o) ∧ s.connector.failEstablish = true ∧
        s.connect call options =
          (s.establish.1, .returned (.error (.collaborator Connector.rejected))) ∧
        s.connectLog call options = []) ∨
      ((∃ o, options.validate = .ok o) ∧ s.connector.failEstablish = false ∧ s.installed ≠ none ∧
        s.connect call options =
          (s.establish.1.reject x, .returned (.error .alreadyConnected)) ∧
        s.connectLog call options = []) ∨
      (∃ o, options.validate = .ok o) ∧ s.connector.failEstablish = false ∧ s.installed = none ∧
        s.connect call options =
          (τ.after.settle, if τ.returned then .returned (.ok x) else .parked) ∧
        s.connectLog call options = τ :: τ.after.settleLog := by
  intro x τ
  unfold connect connectLog
  cases hvalid : options.validate with
  | error e => exact Or.inl ⟨e, rfl, rfl, rfl⟩
  | ok o =>
    refine Or.inr ?_
    cases hfail : s.connector.failEstablish with
    | true =>
      rw [establish_of_fail hfail]
      exact Or.inl ⟨⟨o, rfl⟩, rfl, rfl, rfl⟩
    | false =>
      obtain ⟨hest, hl, -⟩ := establish_spec hfail
      have hsame : s.establish.1.installed = s.installed := congrArg Life.installed hl
      rw [hest]
      dsimp only
      refine Or.inr ?_
      cases hi : s.establish.1.isConnected with
      | true =>
        have hinstall : s.establish.1.install x = (s.establish.1, false) := if_pos hi
        rw [hinstall]
        exact Or.inl ⟨⟨o, rfl⟩, rfl, hsame ▸ isConnected_iff.mp hi, rfl, rfl⟩
      | false =>
        have hinstall : s.establish.1.install x = (τ.session, true) := by
          show _ = ((s.establish.1.install x).1, true)
          rw [install, if_neg (by simp [hi])]
        have hnone : s.installed = none := by
          by_contra hne
          rw [isConnected_iff.mpr (hsame ▸ hne)] at hi
          cases hi
        rw [hinstall]
        exact Or.inr ⟨⟨o, rfl⟩, rfl, hnone, settle_announced _ _ _, rfl⟩

/-- A disconnect finds no session, or takes the installed one away. -/
theorem disconnect_cases (s : Session) (call : Nat) :
    (s.active = none ∧ s.disconnect call = (s, .returned (.error .notConnected)) ∧
        s.disconnectLog call = []) ∨
      ∃ a fault, s.active = some a ∧ (s.leaving call a.session).caller = .disconnect call fault ∧
        (s.leaving call a.session).message = disconnectNotice fault ∧
        s.disconnect call = ((s.leaving call a.session).after.settle,
          if (s.leaving call a.session).returned then .returned (disconnectResult fault)
          else .parked) ∧
        s.disconnectLog call =
          s.leaving call a.session :: (s.leaving call a.session).after.settleLog := by
  unfold disconnect disconnectLog
  cases ha : s.active with
  | none => exact Or.inl ⟨rfl, rfl, rfl⟩
  | some a =>
    refine Or.inr ⟨a, ((s.turnCycle (some .cancelled) none).teardown a.session).2, rfl, rfl, rfl,
      ?_, rfl⟩
    exact settle_announced _ _ _

end operations

end Session

end Switchboard
