import Switchboard.Proofs.Session.Ledgers

/-!
# Faults of teardowns

Which teardowns the ledger counts among those that failed.

**Reports** (`Reports`). A connect that loses, a disconnect and a forced end look at what their
teardown returns, and count a fault. Together they are known from the books
(`Books.reporting`), since each of them counts a connect or turns a cycle. Every operation reports
what its teardowns return, for as long as the connector is not told otherwise (`Step.reports`).

**Silence.** The release of the state tears the installed session down as well, but counts no fault.

**Main statement** (`faults_are_counted_in_use`). Of the teardowns that returned a fault, the ledger
counts all but the one of the release.
-/

namespace Switchboard.Session

open Hub (Use)

/-! ## Reports -/

/-- The teardowns after which a fault is counted: those of connects that lost, and those with which
a cycle ended. -/
def Books.reporting (b : Books) : Int := b.ledger.alreadyConnected + b.number - b.ledger.connects

/-- Between two states the connector was not told otherwise, and every teardown that returned a
fault was counted, except for that of a release. -/
structure Reports (s s' : Session) : Prop where
  script : s'.connector.failTeardown = s.connector.failTeardown
  torn : s.connector.tornDown <:+ s'.connector.tornDown
  counted : (s'.ledger.teardownFailures : Int) - s.ledger.teardownFailures =
    if s.connector.failTeardown then s'.books.reporting - s.books.reporting else 0

section reports

variable {s s' s'' : Session}

/-- Nothing is counted. -/
theorem Reports.silent (hscript : s'.connector.failTeardown = s.connector.failTeardown)
    (htorn : s.connector.tornDown <:+ s'.connector.tornDown)
    (hreporting : s'.books.reporting = s.books.reporting)
    (hfailures : s'.ledger.teardownFailures = s.ledger.teardownFailures) : Reports s s' where
  script := hscript
  torn := htorn
  counted := by rw [hreporting, hfailures, Int.sub_self, Int.sub_self, ite_self]

/-- Nothing is torn down. -/
theorem Reports.of_eq (hscript : s'.connector.failTeardown = s.connector.failTeardown)
    (htorn : s'.connector.tornDown = s.connector.tornDown)
    (hreporting : s'.books.reporting = s.books.reporting)
    (hfailures : s'.ledger.teardownFailures = s.ledger.teardownFailures) : Reports s s' :=
  .silent hscript (htorn ▸ List.suffix_rfl) hreporting hfailures

theorem Reports.refl (s : Session) : Reports s s := .of_eq rfl rfl rfl rfl

/-- The connector is left alone. -/
theorem Reports.idle (hconnector : s'.connector = s.connector)
    (hreporting : s'.books.reporting = s.books.reporting)
    (hfailures : s'.ledger.teardownFailures = s.ledger.teardownFailures) : Reports s s' :=
  .of_eq (by rw [hconnector]) (by rw [hconnector]) hreporting hfailures

theorem Reports.still (hconnector : s'.connector = s.connector) (hbooks : s'.books = s.books) :
    Reports s s' :=
  .idle hconnector (by rw [hbooks])
    (congrArg (fun b : Books => b.ledger.teardownFailures) hbooks)

theorem Reports.trans (h : Reports s s') (h' : Reports s' s'') : Reports s s'' where
  script := h'.script.trans h.script
  torn := h.torn.trans h'.torn
  counted := by
    have hcounted := h.counted
    have hcounted' := h'.counted
    rw [h.script] at hcounted'
    split at hcounted <;> rename_i hfail
    · rw [if_pos hfail] at hcounted' ⊢
      omega
    · rw [if_neg hfail] at hcounted' ⊢
      omega

/-- One teardown reports what it returns. -/
theorem Reports.teardown (x : Serial)
    (hconnector : s'.connector = (s.connector.teardown x).1)
    (hreporting : s'.books.reporting = s.books.reporting + 1)
    (hfailures : s'.ledger.teardownFailures =
      (s.ledger.teardown (s.connector.teardown x).2).teardownFailures) : Reports s s' where
  script := by
    rw [hconnector]
    rfl
  torn := by
    rw [hconnector]
    exact List.suffix_cons ..
  counted := by
    rw [hfailures, hreporting, Connector.teardown]
    dsimp only
    split
    · simp only [Ledger.teardown]
      omega
    · simp only [Ledger.teardown]
      omega

end reports

/-! ## The connector -/

section connector

variable (s : Session)

theorem connector_readCauses (received : List (CauseReader × Option Cause)) :
    (s.readCauses received).connector = s.connector :=
  (eq_of_core (core_readCauses s received)).1

theorem connector_readMessages (received : List (Nat × Option Message)) :
    (s.readMessages received).connector = s.connector :=
  (eq_of_core (core_readMessages s received)).1

theorem connector_turnCycle (cause : Option Cause) (active : Option Active) :
    (s.turnCycle cause active).connector = s.connector :=
  (eq_of_core (core_turnCycle s cause active)).1

theorem connector_published (who : LifecycleCall) :
    (s.published who).connector = s.connector := by
  cases who <;> rfl

theorem connector_resumeCalls (returned : List (LifecycleCall × Nat)) :
    (returned.foldl (fun s r => s.resumeCall r.1) s).connector = s.connector := by
  induction returned generalizing s with
  | nil => rfl
  | cons r rest ih =>
    refine (ih _).trans ?_
    obtain ⟨who, n⟩ := r
    cases who <;> rfl

theorem connector_announce (who : LifecycleCall) (m : Message) :
    (s.announce who m).1.connector = s.connector := by
  have hread : (readMessages { s with messages := (s.messages.publish who m).hub }
      (s.messages.publish who m).received).connector = s.connector := connector_readMessages _ _
  unfold announce
  dsimp only
  cases (s.messages.publish who m).result with
  | returned n => exact (connector_published _ who).trans hread
  | parked => exact hread

end connector

/-! ## Operations -/

section operations

variable (s : Session)

theorem reports_announce (who : LifecycleCall) (m : Message) :
    Reports s (s.announce who m).1 := by
  have hbooks := books_announce s who m
  have hledger : (s.announce who m).1.ledger = (s.books.announce who m).ledger :=
    congrArg Books.ledger hbooks
  refine .idle (connector_announce s who m) ?reporting ?failures
  case reporting =>
    rw [hbooks, Books.reporting, Books.announce]
    dsimp only
    cases (s.books.messages.publish who m).result <;> rfl
  case failures =>
    rw [hledger, Books.announce]
    dsimp only
    cases (s.books.messages.publish who m).result <;> rfl

theorem reports_passOn (hub : Hub LifecycleCall Nat Message)
    (received : List (Nat × Option Message)) (returned : List (LifecycleCall × Nat)) :
    Reports s (s.passOn hub received returned) := by
  have hbooks := books_passOn s hub received returned
  have hconnector : (s.passOn hub received returned).connector = s.connector :=
    (connector_resumeCalls _ returned).trans (connector_readMessages _ received)
  refine .idle hconnector ?reporting ?failures
  case reporting =>
    rw [hbooks]
    rfl
  case failures => exact congrArg (fun b : Books => b.ledger.teardownFailures) hbooks

theorem reports_establish : Reports s s.establish.1 := by
  cases hfail : s.connector.failEstablish with
  | true =>
    rw [establish_of_fail hfail]
    exact .of_eq rfl rfl rfl rfl
  | false =>
    rw [establish_of_ok hfail]
    exact .of_eq rfl rfl rfl rfl

/-- A connect that loses reports what the teardown of its own connection returns. -/
theorem reports_reject (x : Serial) : Reports s (s.reject x) := by
  refine .teardown x rfl ?reporting rfl
  rw [books_reject, Books.reporting, Books.reporting]
  show ((s.ledger.teardown (s.connector.teardown x).2).alreadyConnected + 1 : Nat) +
    (s.cycle.number : Int) - (s.ledger.teardown (s.connector.teardown x).2).connects = _
  cases (s.connector.teardown x).2 <;>
  · simp only [Ledger.teardown, books]
    omega

/-- An install turns the cycle and counts a connect, and tears nothing down. -/
theorem reports_joining {x : Serial} (call : Nat) (hi : s.installed = none) :
    Reports s (s.joining call x).after := by
  suffices h : Reports s (s.joining call x).session from h.trans (reports_announce _ _ _)
  have hbooks := books_joining (x := x) s call hi
  have hnot : ¬ s.isConnected = true := fun h => isConnected_iff.mp h hi
  have hconnector : (s.joining call x).session.connector = s.connector := by
    rw [joining, install, if_neg hnot]
    exact connector_turnCycle s none _
  refine .idle hconnector ?reporting
    (congrArg (fun b : Books => b.ledger.teardownFailures) hbooks)
  case reporting =>
    rw [hbooks, Books.reporting, Books.reporting]
    show (s.ledger.alreadyConnected : Int) + (s.cycle.number + 1 : Nat) -
      (s.ledger.connects + 1 : Nat) = s.ledger.alreadyConnected + s.cycle.number - s.ledger.connects
    omega

theorem Books.reporting_leave (b : Books) (x : Serial) (fault : Option Fault) (cause : Cause) :
    (b.leave x fault cause).reporting = b.reporting + 1 := by
  obtain ⟨hconnects, -, -, hsecond, -⟩ := disconnect_spec (b.ledger.teardown fault) cause
  have hfault : (b.ledger.teardown fault).connects = b.ledger.connects ∧
      (b.ledger.teardown fault).alreadyConnected = b.ledger.alreadyConnected := by
    cases fault <;> exact ⟨rfl, rfl⟩
  rw [hfault.1] at hconnects
  rw [hfault.2] at hsecond
  show (((b.ledger.teardown fault).disconnect cause).alreadyConnected : Int) +
    (b.number + 1 : Nat) - ((b.ledger.teardown fault).disconnect cause).connects = _
  rw [hconnects, hsecond, Books.reporting]
  omega

theorem teardownFailures_disconnect (l : Ledger) (cause : Cause) :
    (l.disconnect cause).teardownFailures = l.teardownFailures := by
  cases cause <;> rfl

variable {s} in
/-- Whoever takes the installed session away reports what its teardown returns. -/
theorem Reports.leave {s' : Session} {x : Serial} {cause : Cause}
    (hconnector : s'.connector = (s.connector.teardown x).1)
    (hbooks : s'.books = s.books.leave x (s.connector.teardown x).2 cause) : Reports s s' := by
  refine .teardown x hconnector ?reporting ?failures
  case reporting => rw [hbooks, Books.reporting_leave]
  case failures =>
    exact (congrArg (fun b : Books => b.ledger.teardownFailures) hbooks).trans
      (teardownFailures_disconnect _ _)

theorem reports_leaving (call : Nat) (x : Serial) : Reports s (s.leaving call x).after := by
  have hconnector : (s.leaving call x).session.connector = (s.connector.teardown x).1 := by
    show ((s.turnCycle (some .cancelled) none).connector.teardown x).1 = _
    rw [connector_turnCycle]
  exact (Reports.leave hconnector (books_leaving s call x)).trans (reports_announce _ _ _)

theorem reports_ending (x : Serial) (cause : Cause) : Reports s (s.ending x cause).after := by
  have hconnector : (s.ending x cause).session.connector = (s.connector.teardown x).1 :=
    connector_turnCycle _ (some cause) none
  exact (Reports.leave hconnector (books_ending s x cause)).trans (reports_announce _ _ _)

/-- The release does not look at what its teardown returns. -/
theorem reports_release : Reports s s.release := by
  have hbooks := books_release s
  have hledger : s.release.ledger = s.books.release.ledger := congrArg Books.ledger hbooks
  have hconnector : s.release.connector.failTeardown = s.connector.failTeardown ∧
      s.connector.tornDown <:+ s.release.connector.tornDown := by
    unfold release
    dsimp only
    rw [connector_readMessages, connector_readCauses]
    cases s.active with
    | none => exact ⟨rfl, List.suffix_rfl⟩
    | some a => exact ⟨rfl, List.suffix_cons ..⟩
  refine .silent hconnector.1 hconnector.2 ?reporting ?failures
  case reporting =>
    rw [hbooks, Books.release]
    cases s.books.installed <;> rfl
  case failures =>
    rw [hledger, Books.release]
    cases s.books.installed <;> rfl

/-! ## Settling -/

theorem reports_endSession (x : Serial) (cause : Cause) : Reports s (s.endSession x cause) := by
  by_cases hi : s.installed = some x
  · rw [(endSession_of_installed hi cause).1]
    exact reports_ending s x cause
  · rw [endSession_of_ne hi]
    exact .refl s

theorem reports_endSessions (ready : List Watch) :
    Reports s (ready.foldl (fun s w =>
      match w.fired with
      | some cause => s.endSession w.session cause
      | none => s) s) := by
  induction ready generalizing s with
  | nil => exact .refl s
  | cons w ready ih =>
    refine .trans ?_ (ih _)
    dsimp only
    cases w.fired with
    | none => exact .refl s
    | some cause => exact reports_endSession s w.session cause

theorem reports_runWatches : Reports s s.runWatches := by
  have hgather : Reports s
      { s with watches := s.watches.filter fun w => !(w.running && w.fired.isSome) } :=
    .still rfl rfl
  exact hgather.trans (reports_endSessions _ _)

theorem reports_releaseIfUnheld : Reports s s.releaseIfUnheld := by
  unfold releaseIfUnheld
  split
  · exact .refl s
  · exact reports_release s

theorem reports_settle : Reports s s.settle :=
  ((reports_releaseIfUnheld s).trans (reports_runWatches _)).trans (reports_releaseIfUnheld _)

variable {s} in
theorem Reports.settle {s' : Session} (h : Reports s s') : Reports s s'.settle :=
  h.trans (reports_settle s')

/-! ## Connecting and disconnecting -/

theorem reports_connect (call : Nat) (options : Options) :
    Reports s (s.connect call options).1 := by
  rcases connect_cases s call options with ⟨e, -, hconnect, -⟩ | ⟨-, -, hconnect, -⟩ |
    ⟨-, -, -, hconnect, -⟩ | ⟨-, hok, hi, hconnect, -⟩
  · rw [hconnect]
    exact .of_eq rfl rfl rfl rfl
  · rw [hconnect]
    exact reports_establish s
  · rw [hconnect]
    exact (reports_establish s).trans (reports_reject _ _)
  · have hvacant : s.establish.1.installed = none := by
      rw [establish_of_ok hok]
      exact hi
    rw [hconnect]
    exact ((reports_establish s).trans (reports_joining _ call hvacant)).settle

theorem reports_connectAll (call : Nat) (options : Options) (n : Nat) :
    Reports s (s.connectAll call options n).1 := by
  induction n generalizing s with
  | zero => exact .refl s
  | succ n ih =>
    rw [connectAll_succ]
    exact (reports_connect s call options).trans (ih _)

theorem reports_disconnect (call : Nat) : Reports s (s.disconnect call).1 := by
  rcases disconnect_cases s call with ⟨-, hdisconnect, -⟩ | ⟨a, fault, -, -, -, hdisconnect, -⟩
  · rw [hdisconnect]
    exact .refl s
  · rw [hdisconnect]
    exact (reports_leaving s call a.session).settle

/-! ## The connector's side, holders and observers -/

theorem reports_terminate (cause : Cause) : Reports s (s.terminate cause).1 := by
  unfold terminate Connector.takeLatest
  cases s.connector.pending.max? with
  | none => exact .refl s
  | some x => exact Reports.settle (.of_eq rfl rfl rfl rfl)

theorem reports_clone (name : String) : Reports s (s.clone name) := by
  unfold clone
  split
  · exact .refl s
  · exact .still rfl rfl

theorem reports_dropClone (name : String) : Reports s (s.dropClone name).1 := by
  unfold dropClone
  split
  · exact Reports.settle (.still rfl rfl)
  · exact .refl s

theorem reports_disown : Reports s s.disown := Reports.settle (.still rfl rfl)

theorem reports_stopObserver (name : String) : Reports s (s.stopObserver name) := by
  unfold stopObserver
  cases s.observer? name with
  | none => exact .refl s
  | some o =>
    dsimp only
    cases o.subscription with
    | none => exact .refl s
    | some at' =>
      have hleave : Reports s (s.leaveCycle at'.1 at'.2) :=
        .still (eq_of_core (core_leaveCycle s at'.1 at'.2)).1 (books_leaveCycle s at'.1 at'.2)
      have hstop : Reports s ((s.leaveCycle at'.1 at'.2).setObserver
          { o with subscription := none }) := hleave.trans (.still rfl rfl)
      exact hstop.settle

theorem reports_dropObserver (name : String) : Reports s (s.dropObserver name) :=
  (reports_stopObserver s name).trans (.still rfl rfl)

theorem reports_startObserver (name : String) (stopAfter : Option Nat) :
    Reports s (s.startObserver name stopAfter) :=
  (reports_dropObserver s name).trans (.still rfl rfl)

/-! ## Subscriptions -/

theorem reports_absorb {β : Type} (reply : Hub.Reply LifecycleCall Nat Message β) :
    Reports s (s.absorb reply) :=
  (reports_passOn s reply.hub reply.received reply.returned).settle

theorem reports_drainMessagesUpTo (id : SubscriptionId) (fuel : Nat) (acc : List Message) :
    Reports s (drainMessagesUpTo id fuel acc s).1 := by
  induction fuel generalizing s acc with
  | zero => exact .refl s
  | succ fuel ih =>
    have hfirst : Reports s (s.tryReceiveMessage id).1 := reports_absorb s _
    rw [drainMessagesUpTo]
    rcases hresult : s.tryReceiveMessage id with ⟨s', m | _ | _⟩
    · rw [hresult] at hfirst
      exact hfirst.trans (ih s' (m :: acc))
    · rw [hresult] at hfirst
      exact hfirst
    · rw [hresult] at hfirst
      exact hfirst

theorem reports_useMessages (id : SubscriptionId) (call : Nat) (use : Use) :
    Reports s (s.useMessages id call use) := by
  have hwaiting : ∀ s' : Session, Reports s s' →
      Reports s (if s.messages.isWaiting id then s else s') := by
    intro s' hs'
    split
    · exact .refl s
    · exact hs'
  cases use with
  | receive => exact hwaiting _ (reports_absorb s _)
  | tryReceive => exact hwaiting _ (reports_absorb s _)
  | drain => exact hwaiting _ (reports_drainMessagesUpTo s id _ [])
  | cancel => exact reports_absorb s _
  | abandon => exact hwaiting _ (reports_absorb s _)

theorem reports_onCauses {β : Type} (handle : CauseHandle) (gone : β)
    (f : Hub Unit CauseReader Cause → Hub.Reply Unit CauseReader Cause β) :
    Reports s (s.onCauses handle gone f).1 := by
  unfold onCauses
  cases s.cycle? handle.cycle with
  | none => exact .refl s
  | some c =>
    have hcycle : (s.setCycle { c with disconnects := (f c.disconnects).hub }).connector =
        s.connector := by
      unfold setCycle
      split <;> rfl
    exact Reports.settle (.still ((connector_readCauses _ _).trans hcycle)
      ((books_readCauses _ _).trans (books_setCycle s _)))

theorem reports_useCauses (handle : CauseHandle) (call : Nat) (use : Use) :
    Reports s (s.useCauses handle call use).1 := by
  cases use with
  | receive => exact reports_onCauses s handle (.returned none) (·.receive handle.id (.call call))
  | tryReceive => exact reports_onCauses s handle .ended (·.tryReceive handle.id)
  | drain => exact reports_onCauses s handle ⟨[], true⟩ (·.drain handle.id)
  | cancel => exact reports_onCauses s handle () (·.cancel handle.id)
  | abandon => exact reports_onCauses s handle () (·.abandon handle.id)

end operations

/-! ## Steps -/

theorem reports_byHolder {s : Session} {effect : Effect} (h : Reports s effect.session) :
    Reports s (s.byHolder effect).session := by
  unfold byHolder
  split
  · exact h
  · exact .refl s

/-- **Every operation reports what its teardowns return.** -/
theorem Step.reports (s : Session) (call : Nat) (handles : List CauseHandle) {st : Step}
    (hst : ∀ on, st ≠ .failTeardown on) : Reports s (st.act s call handles).session := by
  cases st with
  | connect options => exact reports_byHolder (reports_connect s call options)
  | race n options => exact reports_byHolder (reports_connectAll s call options n)
  | disconnect => exact reports_byHolder (reports_disconnect s call)
  | terminate cause => exact reports_terminate s cause
  | dropSignal => exact reports_terminate s .signalLost
  | setRoster roster => exact .of_eq rfl rfl rfl rfl
  | failEstablish on => exact .of_eq rfl rfl rfl rfl
  | failTeardown on => exact absurd rfl (hst on)
  | clone name => exact reports_byHolder (reports_clone s name)
  | dropClone name => exact reports_dropClone s name
  | disown => exact reports_disown s
  | startObserver name stopAfter => exact reports_byHolder (reports_startObserver s name stopAfter)
  | stopObserver name => exact reports_stopObserver s name
  | dropObserver name => exact reports_dropObserver s name
  | subscribeMessages n => exact reports_byHolder (.of_eq rfl rfl rfl rfl)
  | messages id use => exact reports_useMessages s id call use
  | subscribeCauses n => exact reports_byHolder (.of_eq rfl rfl rfl rfl)
  | causes handle use =>
    rw [Step.act]
    split
    · exact .refl s
    · exact reports_useCauses s handle call use
  | sendCommand command =>
    refine reports_byHolder ?_
    rw [sendCommand_eq]
    exact .of_eq rfl rfl rfl rfl
  | snapshotPlayers =>
    refine reports_byHolder ?_
    rw [snapshotPlayers_eq]
    exact .of_eq rfl rfl rfl rfl
  | findPlayerById id =>
    refine reports_byHolder ?_
    rw [findPlayerById_eq]
    exact .of_eq rfl rfl rfl rfl
  | findPlayerByName name =>
    refine reports_byHolder ?_
    rw [findPlayerByName_eq]
    exact .of_eq rfl rfl rfl rfl
  | releasePlayer id => exact reports_byHolder (.of_eq rfl rfl rfl rfl)
  | bind key player => exact reports_byHolder (.of_eq rfl rfl rfl rfl)
  | bindIdentity player => exact reports_byHolder (.of_eq rfl rfl rfl rfl)

namespace Run

variable (r : Run) (st : Step)

/-- The connections torn down in a step, latest first. -/
def tornDown : List Serial :=
  (r.next st).session.connector.tornDown.take
    ((r.next st).session.connector.teardownCalls - r.session.connector.teardownCalls)

/-- The teardowns in a step that returned a fault. -/
def faults : Nat := (r.tornDown st).countP fun x => (r.session.connector.teardown x).2.isSome

/-- Those of them with which a session went with the state. -/
def silentFaults : Nat := (r.endsByRelease st && r.session.connector.failTeardown).toNat

/-- The sum of what is counted in some steps. -/
def total (count : Run → Step → Nat) (r : Run) : List Step → Nat
  | [] => 0
  | st :: steps => count r st + total count (r.next st) steps

theorem reports_next (hst : ∀ on, st ≠ .failTeardown on) : Reports r.session (r.next st).session :=
  (Step.reports r.session r.steps.length r.handles hst).trans (.of_eq rfl rfl rfl rfl)

/-- In every step, also in one that tells the connector otherwise, what is reported is counted. -/
theorem counted_next :
    r.session.connector.tornDown <:+ (r.next st).session.connector.tornDown ∧
      ((r.next st).session.ledger.teardownFailures : Int) - r.session.ledger.teardownFailures =
        if r.session.connector.failTeardown then
          (r.next st).session.books.reporting - r.session.books.reporting
        else 0 := by
  by_cases hst : ∃ on, st = .failTeardown on
  · obtain ⟨on, rfl⟩ := hst
    refine ⟨List.suffix_rfl, ?_⟩
    show (r.session.ledger.teardownFailures : Int) - r.session.ledger.teardownFailures =
      if r.session.connector.failTeardown then r.session.books.reporting - r.session.books.reporting
      else 0
    rw [Int.sub_self, Int.sub_self, ite_self]
  · have hreports := r.reports_next st fun on h => hst ⟨on, h⟩
    exact ⟨hreports.torn, hreports.counted⟩

/-- A step adds to the connections torn down those that it tears down. -/
theorem tornDown_append :
    (r.next st).session.connector.tornDown = r.tornDown st ++ r.session.connector.tornDown := by
  obtain ⟨new, hnew⟩ := (r.counted_next st).1
  have hlength : (r.next st).session.connector.teardownCalls - r.session.connector.teardownCalls =
      new.length := by
    rw [Connector.teardownCalls, ← hnew, List.length_append]
    exact Nat.add_sub_cancel ..
  rw [tornDown, hlength, ← hnew, List.take_left']
  rfl

/-- The connector tells of a fault for every teardown or for none. -/
theorem faults_eq : r.faults st =
    if r.session.connector.failTeardown then (r.tornDown st).length else 0 := by
  unfold faults Connector.teardown
  dsimp only
  split
  · exact List.countP_eq_length.mpr fun x _ => rfl
  · exact List.countP_eq_zero.mpr fun x _ => nofun

/-- A step in which something is torn down leaves the connector as it was told. -/
theorem script_next (hst : r.tornDown st ≠ []) :
    (r.next st).session.connector.failTeardown = r.session.connector.failTeardown := by
  refine (r.reports_next st fun on hon => hst ?_).script
  subst hon
  exact List.append_left_eq_self.mp (r.tornDown_append (.failTeardown on)).symm

end Run

section steps

variable {r : Run} {st : Step} {calls lapses : Nat}

/-- **A step counts the faults of its teardowns**, except for the one with which the state goes. -/
theorem Run.AtRest.faults_next (hr : r.AtRest) (hb : Balanced calls 0 r.session.books)
    (hlapses : r.session.cycle.number + lapses =
      r.session.ledger.connects + r.session.ledger.disconnects) (st : Step) :
    (r.next st).session.ledger.teardownFailures + r.silentFaults st =
      r.session.ledger.teardownFailures + r.faults st := by
  have hb' := hr.balanced_next hb st
  have hturned := hr.turned_next hb hb' hlapses
  have htorn : r.session.connector.tornDown.length =
      r.session.ledger.alreadyConnected + r.session.ledger.disconnects := hb.torn
  have htorn' : (r.next st).session.connector.tornDown.length =
      (r.next st).session.ledger.alreadyConnected + (r.next st).session.ledger.disconnects :=
    hb'.torn
  rw [r.tornDown_append st, List.length_append] at htorn'
  have hcounted := (r.counted_next st).2
  rw [Run.faults_eq, Run.silentFaults]
  split <;> rename_i hfail
  · rw [if_pos hfail] at hcounted
    rw [hfail, Bool.and_true]
    simp only [Books.reporting, books] at hcounted
    omega
  · rw [if_neg hfail] at hcounted
    rw [Bool.eq_false_iff.mpr hfail, Bool.and_false, Bool.toNat_false]
    omega

/-! ## Runs -/

theorem Run.AtRest.faults_extend (hr : r.AtRest) (hb : Balanced calls 0 r.session.books)
    (hlapses : r.session.cycle.number + lapses =
      r.session.ledger.connects + r.session.ledger.disconnects) (steps : List Step) :
    (r.extend steps).session.ledger.teardownFailures + r.total Run.silentFaults steps =
      r.session.ledger.teardownFailures + r.total Run.faults steps := by
  induction steps generalizing r calls lapses with
  | nil => rfl
  | cons st steps ih =>
    have hb' := hr.balanced_next hb st
    have hfirst := hr.faults_next hb hlapses st
    have hrest := ih (hr.next st) hb' (hr.turned_next hb hb' hlapses)
    rw [Run.total, Run.total, Run.extend_cons]
    omega

theorem Run.total_silentFaults_le (r : Run) (steps : List Step) :
    r.total Run.silentFaults steps ≤ r.lapses steps := by
  induction steps generalizing r with
  | nil => exact Nat.le_refl 0
  | cons st steps ih =>
    have hfirst : r.silentFaults st ≤ (r.endsByRelease st).toNat := by
      rw [Run.silentFaults]
      cases r.endsByRelease st
      · exact Nat.le_refl 0
      · exact Bool.toNat_le _
    exact Nat.add_le_add hfirst (ih (r.next st))

end steps

/-- **The faults of teardowns are counted while the state is in use.**

Take any run and one more step. The connections that the step tears down stand before those torn
down earlier, and the connector is told nothing else while it does so. The counter of failed
teardowns gains one for each of those teardowns that returned a fault and nothing otherwise, whether
a connect that lost, a disconnect or a forced end made it; only the fault with which an installed
session goes with the state is not counted. So over the whole run all faults are counted but one at
most, and all of them as long as the state is in use. -/
theorem faults_are_counted_in_use (settings : Settings) (players : List Player)
    (catalog : List Packet.Entry) (steps : List Step) :
    let begin' := run settings players catalog []
    let r := run settings players catalog steps
    (∀ st, (r.next st).session.connector.tornDown = r.tornDown st ++ r.session.connector.tornDown ∧
        (r.tornDown st ≠ [] →
          (r.next st).session.connector.failTeardown = r.session.connector.failTeardown) ∧
        (r.next st).session.ledger.teardownFailures + r.silentFaults st =
          r.session.ledger.teardownFailures + r.faults st) ∧
      r.session.ledger.teardownFailures + begin'.total Run.silentFaults steps =
        begin'.total Run.faults steps ∧
      begin'.total Run.silentFaults steps ≤ 1 ∧
      (r.session.released = false → begin'.total Run.silentFaults steps = 0) := by
  intro begin' r
  have hnew : begin'.AtRest := run_atRest settings players catalog []
  have hr : r.AtRest := run_atRest settings players catalog steps
  have hb₀ : Balanced 0 0 begin'.session.books :=
    ⟨rfl, rfl, rfl, rfl, rfl, rfl, fun _ => rfl, Nat.le_refl _, Nat.le_succ _⟩
  have hlapses₀ : begin'.session.cycle.number + 0 =
      begin'.session.ledger.connects + begin'.session.ledger.disconnects := rfl
  obtain ⟨hb, hlapses⟩ := hnew.balanced_extend hb₀ hlapses₀ steps
  have hsilent := begin'.total_silentFaults_le steps
  have hnumber : r.session.cycle.number + (0 + begin'.lapses steps) =
      r.session.ledger.connects + r.session.ledger.disconnects := hlapses
  have htotal : r.session.ledger.teardownFailures + begin'.total Run.silentFaults steps =
      0 + begin'.total Run.faults steps := hnew.faults_extend hb₀ hlapses₀ steps
  refine ⟨fun st => ⟨r.tornDown_append st, r.script_next st, hr.faults_next hb hlapses st⟩, ?total,
    ?once, fun hrel => ?inUse⟩
  case total => exact htotal.trans (Nat.zero_add _)
  case once =>
    have hlapsed : r.session.ledger.connects + r.session.ledger.disconnects ≤
        r.session.cycle.number + 1 := hb.lapsed.2
    omega
  case inUse =>
    have hturned : r.session.cycle.number =
        r.session.ledger.connects + r.session.ledger.disconnects := hb.turned hrel
    omega

/-- The owner lets go while a session is installed. Its teardown returns a fault, and the counter
stays as it was. -/
theorem release_is_silent :
    let r := run .standard [] [] [.connect (.forServer "a"), .failTeardown true]
    r.tornDown .disown = [1] ∧ r.faults .disown = 1 ∧
      (r.next .disown).session.ledger.teardownFailures ≠
        r.session.ledger.teardownFailures + r.faults .disown := by
  decide +kernel

end Switchboard.Session
