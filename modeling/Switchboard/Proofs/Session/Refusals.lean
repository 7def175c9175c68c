import Switchboard.Proofs.Session.Footing
import Switchboard.Proofs.Session.Transitions

/-!
# Calls that fail

Nothing comes of a call that fails, with one exception: a disconnect whose teardown reports a fault
has ended its session nevertheless.

**Requests** (`Request`). What may be asked of a session and be refused, besides connects and
disconnects. A player is cached only once everything that may fail has succeeded.

**Faulty teardowns** (`aftermath`). What a disconnect leaves, besides the message that tells of it,
does not depend on whether the connector reports a fault. That is said by comparing it with the same
disconnect on a connector that reports none (`mended`).

**Main statement** (`failures_leave_no_trace`).
-/

namespace Switchboard.Session

/-! ## Requests -/

/-- What is asked of a session besides connecting and disconnecting, and may be refused. -/
inductive Request where
  | snapshotPlayers
  | findPlayerById (id : String)
  | findPlayerByName (name : String)
  | packets
  | packetId (name : String)
  | packetName (id : Nat)
  | sendCommand (command : String)
  | sentCommands
  | serial
  | nested
  | bindIdentity (player : Player)

/-- The error that came of a call. -/
def failure {β : Type} : Except SessionError β → Option SessionError
  | .ok _ => none
  | .error e => some e

/-- The state after a request, and the error with which it failed. -/
def Request.ask (s : Session) : Request → Session × Option SessionError
  | snapshotPlayers => s.snapshotPlayers.map id failure
  | findPlayerById key => (s.findPlayerById key).map id failure
  | findPlayerByName name => (s.findPlayerByName name).map id failure
  | packets => (s, failure s.packets)
  | packetId name => (s, failure (s.packetId name))
  | packetName key => (s, failure (s.packetName key))
  | sendCommand command => (s.sendCommand command).map id failure
  | sentCommands => (s, failure s.sentCommands)
  | serial => (s, failure s.serial)
  | nested => (s, failure s.nested)
  | bindIdentity player =>
    (s.setRegistry (s.registry.bindIdentity player).1, failure (s.registry.bindIdentity player).2)

section requests

variable {s : Session} {e : SessionError}

theorem failure_eq_some {β : Type} {result : Except SessionError β} :
    failure result = some e ↔ result = .error e := by
  cases result <;> simp [failure]

theorem snapshotPlayers_of_error (he : s.snapshotPlayers.2 = .error e) :
    s.snapshotPlayers.1 = s := by
  rcases snapshotPlayers_cases s with ⟨-, heq⟩ | ⟨-, -, heq⟩ | ⟨-, -, heq⟩
  · rw [heq]
  · rw [heq]
  · rw [heq] at he
    cases he

theorem findPlayerById_of_error {key : String} (he : (s.findPlayerById key).2 = .error e) :
    (s.findPlayerById key).1 = s := by
  rcases findPlayerById_cases s key with ⟨-, heq⟩ | ⟨-, p, -, heq⟩ |
    ⟨-, -, ⟨e, -, heq⟩ | ⟨p, -, heq⟩⟩
  · rw [heq]
  · rw [heq]
  · rw [heq]
  · rw [heq] at he
    cases he

theorem bindIdentity_of_error {registry : Registry String Player} {player : Player}
    (he : (registry.bindIdentity player).2 = .error e) :
    (registry.bindIdentity player).1 = registry := by
  rcases bindIdentity_cases registry player with ⟨heq, -⟩ | ⟨id, -, -, heq⟩
  · rw [heq]
  · rw [heq] at he
    cases he

theorem findPlayerByName_of_error {name : String} (he : (s.findPlayerByName name).2 = .error e) :
    (s.findPlayerByName name).1 = s := by
  rcases findPlayerByName_cases s name with ⟨-, heq⟩ | ⟨-, e, -, heq⟩ |
    ⟨-, p, -, ⟨-, heq⟩ | ⟨id, -, -, -, heq⟩⟩
  · rw [heq]
  · rw [heq]
  · rw [heq]
  · rw [heq] at he
    cases he

theorem sendCommand_of_error {command : String} (he : (s.sendCommand command).2 = .error e) :
    (s.sendCommand command).1 = s := by
  unfold sendCommand at he ⊢
  split
  · rfl
  · rename_i hactive
    rw [hactive] at he
    cases he

/-- **A request that fails changes nothing.** -/
theorem Request.ask_of_failure {q : Request} (he : (q.ask s).2 = some e) : (q.ask s).1 = s := by
  cases q with
  | snapshotPlayers => exact snapshotPlayers_of_error (failure_eq_some.mp he)
  | findPlayerById key => exact findPlayerById_of_error (failure_eq_some.mp he)
  | findPlayerByName name => exact findPlayerByName_of_error (failure_eq_some.mp he)
  | sendCommand command => exact sendCommand_of_error (failure_eq_some.mp he)
  | bindIdentity player =>
    have hsame := bindIdentity_of_error (failure_eq_some.mp he)
    exact congrArg s.setRegistry hsame
  | _ => rfl

end requests

/-! ## Connects -/

/-- What a connect may fail with, and what that leaves. -/
theorem connect_failures {s : Session} (hpending : s.connector.lastSerial + 1 ∉ s.connector.pending)
    (hwatches : ∀ w ∈ s.watches, w.session ≠ s.connector.lastSerial + 1) (call : Nat)
    (options : Options) :
    let attempt := s.connect call options
    ((∃ reason, attempt.2 = .returned (.error (.invalidOptions reason))) ↔
        Text.allBlank options.serverCode = true) ∧
      (Text.allBlank options.serverCode = true → attempt.1.connector = s.connector) ∧
      ∀ e, attempt.2 = .returned (.error e) → attempt.1.footing = s.footing ∧
        (e = .invalidOptions Options.serverCodeRequired ∨
          e = .collaborator Connector.rejected ∧ s.connector.failEstablish = true ∨
          e = .alreadyConnected ∧ s.isConnected = true) := by
  intro attempt
  cases hblank : Text.allBlank options.serverCode with
  | true =>
    have hrefused : attempt = _ := connect_of_blank hblank call
    refine ⟨⟨fun _ => rfl, fun _ => ⟨_, congrArg Prod.snd hrefused⟩⟩, fun _ => ?_, fun e he =>
      ⟨footing_connect hpending hwatches he, Or.inl ?_⟩⟩
    · rw [hrefused]
      rfl
    · rw [hrefused] at he
      cases he
      rfl
  | false =>
    refine ⟨⟨?_, fun h => absurd h Bool.false_ne_true⟩, fun h => absurd h Bool.false_ne_true,
      fun e he => ⟨footing_connect hpending hwatches he, Or.inr (connect_error hblank he)⟩⟩
    rintro ⟨reason, he⟩
    rcases connect_error hblank he with ⟨h, -⟩ | ⟨h, -⟩ <;> cases h

/-! ## Faulty teardowns -/

/-- The same session on another connector. -/
def rewire (s : Session) (c : Connector) : Session := { s with connector := c }

/-- The same session on a connector that reports no fault for its teardowns. -/
def mended (s : Session) : Session := s.rewire { s.connector with failTeardown := false }

/-- The state besides the messages, those who have received one, and the counters. -/
def aftermath (s : Session) : Session :=
  { s.mended with
    messages := .new "" .reliable
    ledger := .empty
    completions := s.completions.filter fun c => (causeOf c).isSome }

section rewiring

variable (s : Session) (c : Connector)

theorem leaveCycle_rewire (number : Nat) (id : SubscriptionId) :
    (s.rewire c).leaveCycle number id = (s.leaveCycle number id).rewire c := by
  unfold leaveCycle
  rw [show (s.rewire c).cycle? number = s.cycle? number from rfl]
  cases s.cycle? number with
  | none => rfl
  | some d =>
    dsimp only [setCycle]
    rw [show (s.rewire c).cycle = s.cycle from rfl]
    split <;> rfl

theorem observe_rewire (name : String) (cause : Option Cause) :
    (s.rewire c).observe name cause = (s.observe name cause).rewire c := by
  have hfind : (s.rewire c).observer? name = s.observer? name := rfl
  cases ho : s.observer? name with
  | none => rw [observe, observe, hfind, ho]
  | some o =>
    have hleave : (s.rewire c).unsubscribed o = (s.unsubscribed o).rewire c := by
      unfold unsubscribed
      cases o.subscription with
      | none => rfl
      | some subscription => exact leaveCycle_rewire s c _ _
    rw [observe_of_some ho, observe_of_some (hfind.trans ho), hleave]
    split <;> rfl

theorem readCauses_rewire (received : List (CauseReader × Option Cause)) :
    (s.rewire c).readCauses received = (s.readCauses received).rewire c := by
  induction received generalizing s with
  | nil => rfl
  | cons r rest ih =>
    obtain ⟨call | name, cause⟩ := r
    · exact ih (s.complete (.cause call cause))
    · refine Eq.trans ?_ (ih (s.observe name cause))
      exact congrArg (·.readCauses rest) (observe_rewire s c name cause)

theorem turnCycle_rewire (cause : Option Cause) (active : Option Active) :
    (s.rewire c).turnCycle cause active = (s.turnCycle cause active).rewire c :=
  readCauses_rewire { s with
    cycle := freshCycle s.settings (s.cycle.number + 1)
    past := (endCycle s.cycle cause).1 :: s.past
    active } c _

end rewiring

section teardowns

variable {s : Session}

theorem aftermath_complete {c : Completion} (hc : causeOf c = none) :
    (s.complete c).aftermath = s.aftermath := by
  have hkept : (s.complete c).completions.filter (fun c => (causeOf c).isSome) =
      s.completions.filter fun c => (causeOf c).isSome := by
    rw [complete, List.filter_append]
    simp [hc]
  exact congrArg (fun completions => { s.aftermath with completions }) hkept

theorem aftermath_readMessages (received : List (Nat × Option Message)) :
    (s.readMessages received).aftermath = s.aftermath := by
  induction received generalizing s with
  | nil => rfl
  | cons r rest ih => exact (ih (s := s.complete (.message r.1 r.2))).trans (aftermath_complete rfl)

theorem aftermath_announce (call : Nat) (fault : Option Fault) (m : Message) :
    (s.announce (.disconnect call fault) m).1.aftermath = s.aftermath := by
  have hread := aftermath_readMessages (s := { s with
    messages := (s.messages.publish (.disconnect call fault) m).hub })
    (s.messages.publish (.disconnect call fault) m).received
  unfold announce
  dsimp only
  cases (s.messages.publish (.disconnect call fault) m).result with
  | returned n => exact hread
  | parked => exact hread

theorem leaving_notice (s : Session) (call : Nat) (x : Serial) :
    let fault := (s.connector.teardown x).2
    (s.leaving call x).caller = .disconnect call fault ∧
      (s.leaving call x).message = disconnectNotice fault := by
  obtain ⟨hconnector, -⟩ := eq_of_core (core_turnCycle s (some .cancelled) none)
  have hfault : ((s.turnCycle (some .cancelled) none).connector.teardown x).2 =
      (s.connector.teardown x).2 := congrArg (fun c => (Connector.teardown c x).2) hconnector
  exact ⟨congrArg (LifecycleCall.disconnect call) hfault, congrArg disconnectNotice hfault⟩

/-- Whether the teardown reports a fault shows in the notice only. -/
theorem aftermath_leaving (s : Session) (call : Nat) (x : Serial) :
    (s.leaving call x).after.aftermath = (s.mended.leaving call x).after.aftermath := by
  obtain ⟨hconnector, -⟩ := eq_of_core (core_turnCycle s (some .cancelled) none)
  have hconnector : (s.turnCycle (some .cancelled) none).connector = s.connector := hconnector
  have hturn : s.mended.turnCycle (some .cancelled) none =
      (s.turnCycle (some .cancelled) none).mended := by
    rw [mended, turnCycle_rewire, mended, hconnector]
  have hsession : (s.leaving call x).session.aftermath =
      (s.mended.leaving call x).session.aftermath := by
    rw [leaving, leaving, hturn]
    generalize s.turnCycle (some .cancelled) none = s₁
    rfl
  refine (aftermath_announce ..).trans (hsession.trans ?_)
  exact (aftermath_announce ..).symm

theorem disconnect_error {call : Nat} {e : SessionError}
    (he : (s.disconnect call).2 = .returned (.error e)) :
    (e = .notConnected ∧ s.installed = none ∧ (s.disconnect call).1 = s) ∨
      ∃ x fault, s.installed = some x ∧ (s.connector.teardown x).2 = some fault ∧
        e = .collaborator fault := by
  rcases disconnect_cases s call with ⟨hnone, hdisconnect, -⟩ |
    ⟨a, fault, ha, hcaller, -, hdisconnect, -⟩
  · rw [hdisconnect] at he ⊢
    cases he
    exact Or.inl ⟨rfl, congrArg (Option.map _) hnone, rfl⟩
  · have hfault : (s.connector.teardown a.session).2 = fault := by
      have hsame := (leaving_notice s call a.session).1.symm.trans hcaller
      injection hsame
    rw [hdisconnect] at he
    dsimp only at he
    split at he
    · cases fault with
      | none => cases he
      | some fault =>
        cases he
        exact Or.inr ⟨a.session, fault, congrArg (Option.map _) ha, hfault, rfl⟩
    · cases he

/-- **A disconnect ends its session whether or not the teardown reports a fault.** -/
theorem disconnect_resets {owner : Nat → Option CauseHandle} {t : Scene} (hv : Valid owner t)
    (hheld : t.session.hasHandle = true) {x : Serial} (hi : t.session.installed = some x)
    (call : Nat) :
    let s := t.session
    let fault := (s.connector.teardown x).2
    let s' := (s.disconnect call).1
    s'.installed = none ∧ s'.registry = .empty ∧
      s'.messages = (s.messages.publish (.disconnect call fault) (disconnectNotice fault)).hub ∧
      s'.aftermath = (s.mended.disconnect call).1.aftermath := by
  intro s fault s'
  -- It makes one transition, and dismisses the watch over the session if that can go on.
  have houtcome : ∀ {t' : Scene}, Valid owner t' → t'.session.hasHandle = true →
      t'.session.installed = some x → (t'.session.disconnect call).1 =
        { (t'.session.leaving call x).after with
          watches := (t'.session.leaving call x).after.watches.filter (!isReady ·) } := by
    intro t' hv' hheld' hi'
    rcases disconnect_outcome hv' hheld' call with ⟨hnone, -, -⟩ | ⟨y, _, hi'', -, -, hdisconnect, -⟩
    · rw [installed, hnone] at hi'
      cases hi'
    · rw [hi', Option.some.injEq] at hi''
      subst hi''
      rw [hdisconnect]
  have hoccurs : Occurs .disconnect call t (s.leaving call x) t.ready := .leave rfl hi
  rw [show s' = _ from houtcome hv hheld hi]
  refine ⟨?installed, hoccurs.registry, ?messages, ?aftermath⟩
  case installed => exact congrArg (Option.map _) hoccurs.active
  case messages =>
    have hannounced : (s.leaving call x).after.messages = ((s.leaving call x).session.messages.publish
        (s.leaving call x).caller (s.leaving call x).message).hub :=
      congrArg Books.messages (books_announce ..)
    obtain ⟨hcaller, hmessage⟩ := leaving_notice s call x
    rw [← hcaller, ← hmessage, ← hoccurs.apart.1]
    exact hannounced
  case aftermath =>
    have hv' : Valid owner (t.on s.mended) := ⟨hv.accounted, hv.orderly⟩
    have hmended := houtcome hv' hheld hi
    rw [show (s.mended.disconnect call).1 = _ from hmended]
    exact congrArg (fun s' : Session => { s' with watches := s'.watches.filter (!isReady ·) })
      (aftermath_leaving s call x)

/-- A disconnect on a connector that reports no fault does not fail. -/
theorem disconnect_mended {x : Serial} (hi : s.installed = some x) (call : Nat) (e : SessionError) :
    (s.mended.disconnect call).2 ≠ .returned (.error e) := by
  intro he
  rcases disconnect_error he with ⟨-, hnone, -⟩ | ⟨y, fault, -, hfault, -⟩
  · cases hi.symm.trans hnone
  · cases hfault

end teardowns

/-! ## The theorem -/

/-- **A call that fails leaves the session as it was, unless it is a disconnect that ended it.**

A connect that fails leaves everything but counters, also one of several that follow one another, and
in a race of connects whose phases come in any order so does each of its turns. It is refused for its
options exactly if the server code is blank, and then nobody asks the connector; otherwise it fails
because the establish failed or because it found a session installed.

Any other request that fails changes nothing, and so does a disconnect that finds no session. When
the teardown of a disconnect reports a fault, then that is its error, and what it leaves is what it
would have left without the fault, apart from the text of its message. -/
theorem failures_leave_no_trace (settings : Settings) (players : List Player)
    (catalog : List Packet.Entry) (before : List Step)
    (hheld : (run settings players catalog before).session.hasHandle = true) :
    let r := run settings players catalog before
    let s := r.session
    let call := r.steps.length
    (∀ (n : Nat) (options : Options),
      let s' := (s.connectAll call options n).1
      let attempt := s'.connect call options
      ((∃ reason, attempt.2 = .returned (.error (.invalidOptions reason))) ↔
          Text.allBlank options.serverCode = true) ∧
        (Text.allBlank options.serverCode = true → attempt.1.connector = s'.connector) ∧
        ∀ e, attempt.2 = .returned (.error e) → attempt.1.footing = s'.footing ∧
          (e = .invalidOptions Options.serverCodeRequired ∨
            e = .collaborator Connector.rejected ∧ s'.connector.failEstablish = true ∨
            e = .alreadyConnected ∧ s'.isConnected = true)) ∧
      (∀ (calls : List (Nat × Options)) (schedule more : List Nat) (i : Nat) (c : Contender)
          (x : Option Serial) (e : SessionError),
        let race := (Race.start s calls).run schedule
        ((race.turn i).run more).contenders[i]? = some c →
          c.phase = .ended x (.returned (.error e)) → (race.turn i).footing = race.footing) ∧
      (∀ (q : Request) (e : SessionError), (q.ask s).2 = some e → (q.ask s).1 = s) ∧
      (∀ e, (s.disconnect call).2 = .returned (.error e) →
        (e = .notConnected ∧ s.installed = none ∧ (s.disconnect call).1 = s) ∨
          ∃ x fault, s.installed = some x ∧ (s.connector.teardown x).2 = some fault ∧
            e = .collaborator fault) ∧
      ∀ x, s.installed = some x →
        let fault := (s.connector.teardown x).2
        let s' := (s.disconnect call).1
        s'.installed = none ∧ s'.registry = .empty ∧
          s'.messages = (s.messages.publish (.disconnect call fault) (disconnectNotice fault)).hub ∧
          s'.aftermath = (s.mended.disconnect call).1.aftermath ∧
          ∀ e, (s.mended.disconnect call).2 ≠ .returned (.error e) := by
  intro r s call
  have hrest := run_atRest settings players catalog before
  refine ⟨fun n options => ?connect, fun calls schedule more i c x e => ?race,
    fun q e => Request.ask_of_failure, fun e => disconnect_error, fun x hi => ?disconnect⟩
  case connect =>
    intro s'
    have hconnects : Step.Connects (.connect options) := trivial
    have hdeeds : Deeds (.connect options) call (handleOf r.steps) r.scene _ (r.scene.on s') :=
      connectAll_deeds hrest.valid rfl hconnects hheld options n
    obtain ⟨hpending, -, hwatches⟩ := (hdeeds.valid hrest.valid).accounted.fresh
    exact connect_failures hpending hwatches call options
  case race =>
    intro race hc he
    have htidy := (Race.tidy_start hrest.valid.accounted hrest.quiet hheld calls).run schedule
    exact htidy.footing_turn hc he
  case disconnect =>
    obtain ⟨hinstalled, hregistry, hmessages, haftermath⟩ := disconnect_resets hrest.valid hheld hi call
    exact ⟨hinstalled, hregistry, hmessages, haftermath, disconnect_mended hi call⟩

/-- A second connect loses to the first, and a disconnect ends that one while the connector reports a
fault for every teardown. -/
theorem failures_leave_no_trace_faulty :
    let s := (run .standard [] [] [.failTeardown true, .startObserver "o" none,
      .connect (.forServer "a")]).session
    s.hasHandle = true ∧
      (s.connect 3 (.forServer "b")).2 = .returned (.error .alreadyConnected) ∧
      (s.connect 3 (.forServer "b")).1.footing = s.footing ∧
      (s.disconnect 3).2 = .returned (.error (.collaborator Connector.leaveFailed)) ∧
      (s.disconnect 3).1.installed = none ∧
      (s.disconnect 3).1.aftermath = (s.mended.disconnect 3).1.aftermath := by
  intro s
  have hheld : s.hasHandle = true := by decide +kernel
  have hsecond : (s.connect 3 (.forServer "b")).2 = .returned (.error .alreadyConnected) := by
    decide +kernel
  obtain ⟨hconnect, -, -, -, hdisconnect⟩ := failures_leave_no_trace .standard [] []
    [.failTeardown true, .startObserver "o" none, .connect (.forServer "a")] hheld
  obtain ⟨-, -, hfails⟩ := hconnect 0 (.forServer "b")
  obtain ⟨hinstalled, -, -, haftermath, -⟩ := hdisconnect 1 (by decide +kernel)
  exact ⟨hheld, hsecond, (hfails _ hsecond).1, by decide +kernel, hinstalled, haftermath⟩

end Switchboard.Session
