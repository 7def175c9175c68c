import Switchboard.Proofs.Hub.Waiting
import Switchboard.Proofs.Session.Collections
import Switchboard.Proofs.Session.Deeds

/-!
# The ledger balances

The counters of a session agree with what was done to it.

**The balance** (`Balanced`). Every connect that was made is counted once, every establish and every
teardown belongs to an entry, and each turn of the cycles is owed one message. Entries keep the
balance one by one (`Balanced.install`, `Balanced.announce`, ...).

**Lapses** (`Run.lapses`). A session that goes with the state is counted as a disconnect, but owes no
message. There is one at most, since the state is released once.

**Main statement** (`ledger_balances`).
-/

namespace Switchboard

/-- The sessions ended, whatever the cause. -/
def Ledger.disconnects (l : Ledger) : Nat := l.cancelled + l.closed + l.signalLost

namespace Session

/-! ## The balance -/

/-- The books agree with each other and with the number of connects made. Some of the messages may
not be published yet. -/
structure Balanced (calls owed : Nat) (b : Books) : Prop where
  attempts : calls = b.ledger.connects + b.ledger.invalidOptions + b.ledger.establishFailures +
    b.ledger.alreadyConnected
  dialled : b.establishCalls =
    b.ledger.connects + b.ledger.establishFailures + b.ledger.alreadyConnected
  torn : b.tornDown.length = b.ledger.alreadyConnected + b.ledger.disconnects
  gauge : b.ledger.connects = b.ledger.disconnects + b.ledger.connected.toNat
  shown : b.ledger.connected = b.installed.isSome
  told : b.ledger.messages + b.messages.parkedPublications.length + owed = b.number
  turned : b.released = false → b.number = b.ledger.connects + b.ledger.disconnects
  /-- Only the release ends a session without a turn. -/
  lapsed : b.number ≤ b.ledger.connects + b.ledger.disconnects ∧
    b.ledger.connects + b.ledger.disconnects ≤ b.number + 1

section balance

variable {calls owed : Nat} {b : Books}

theorem disconnects_disconnect (l : Ledger) (cause : Cause) :
    (l.disconnect cause).disconnects = l.disconnects + 1 := by
  cases cause <;> simp only [Ledger.disconnect, Ledger.disconnects] <;> omega

theorem disconnect_spec (l : Ledger) (cause : Cause) :
    (l.disconnect cause).connects = l.connects ∧
      (l.disconnect cause).invalidOptions = l.invalidOptions ∧
      (l.disconnect cause).establishFailures = l.establishFailures ∧
      (l.disconnect cause).alreadyConnected = l.alreadyConnected ∧
      (l.disconnect cause).messages = l.messages ∧ (l.disconnect cause).connected = false := by
  cases cause <;> exact ⟨rfl, rfl, rfl, rfl, rfl, rfl⟩

theorem Balanced.teardown (hb : Balanced calls owed b) (fault : Option Fault) :
    Balanced calls owed { b with ledger := b.ledger.teardown fault } := by
  cases fault with
  | none => exact hb
  | some _ => exact ⟨hb.attempts, hb.dialled, hb.torn, hb.gauge, hb.shown, hb.told, hb.turned,
      hb.lapsed⟩

theorem Balanced.refuse (hb : Balanced calls owed b) :
    Balanced (calls + 1) owed { b with ledger := b.ledger.refuseOptions } :=
  { hb with
    attempts := by
      have h := hb.attempts
      dsimp only [Ledger.refuseOptions]
      omega }

theorem Balanced.fail (hb : Balanced calls owed b) :
    Balanced (calls + 1) owed { b.dial with ledger := b.ledger.failEstablish } :=
  { hb with
    attempts := by
      have h := hb.attempts
      dsimp only [Ledger.failEstablish]
      omega
    dialled := by
      have h := hb.dialled
      dsimp only [Ledger.failEstablish, Books.dial]
      omega }

theorem Balanced.reject (hb : Balanced calls owed b) (x : Serial) (fault : Option Fault) :
    Balanced (calls + 1) owed
      { b.dial.tear x fault with ledger := (b.ledger.teardown fault).refuseSecond } := by
  have ht := hb.teardown fault
  refine { ht with attempts := ?_, dialled := ?_, torn := ?_ }
  · have h := ht.attempts
    dsimp only [Ledger.refuseSecond] at h ⊢
    omega
  · have h := ht.dialled
    dsimp only [Ledger.refuseSecond, Books.tear, Books.dial] at h ⊢
    omega
  · have h : b.tornDown.length = (b.ledger.teardown fault).alreadyConnected +
        (b.ledger.teardown fault).disconnects := ht.torn
    show b.tornDown.length + 1 = (b.ledger.teardown fault).alreadyConnected + 1 +
      (b.ledger.teardown fault).disconnects
    omega

theorem Balanced.install (hb : Balanced calls owed b) (hi : b.installed = none)
    (hrel : b.released = false) (x : Serial) :
    Balanced (calls + 1) (owed + 1) (b.dial.install x) := by
  have hattempts := hb.attempts
  have hdialled := hb.dialled
  have hgauge := hb.gauge
  have htold := hb.told
  have hturned := hb.turned hrel
  have hdown : b.ledger.connected = false := by
    rw [hb.shown, hi]
    rfl
  rw [hdown, Bool.toNat_false] at hgauge
  constructor
  case torn => exact hb.torn
  case shown => rfl
  all_goals
    simp only [Books.install, Books.turn, Books.dial, Ledger.connect, Ledger.disconnects,
      Bool.toNat_true] at *
    omega

theorem Balanced.leave (hb : Balanced calls owed b) {x : Serial} (hi : b.installed = some x)
    (hrel : b.released = false) (fault : Option Fault) (cause : Cause) :
    Balanced calls (owed + 1) (b.leave x fault cause) := by
  have ht := hb.teardown fault
  set l := b.ledger.teardown fault with hl
  have hup : l.connected = true := by
    rw [ht.shown, hi]
    rfl
  -- The end of a session counts one cause, takes the gauge down and leaves the rest.
  obtain ⟨hc, hio, hef, hac, hm, hdown⟩ := disconnect_spec l cause
  have hd := disconnects_disconnect l cause
  have hattempts := ht.attempts
  have hdialled := ht.dialled
  have htorn := ht.torn
  have hgauge := ht.gauge
  have htold := ht.told
  have hturned := ht.turned hrel
  dsimp only at hattempts hdialled htorn hgauge htold hturned
  rw [hup, Bool.toNat_true] at hgauge
  constructor
  case attempts =>
    show calls = (l.disconnect cause).connects + (l.disconnect cause).invalidOptions +
      (l.disconnect cause).establishFailures + (l.disconnect cause).alreadyConnected
    omega
  case dialled =>
    show b.establishCalls = (l.disconnect cause).connects +
      (l.disconnect cause).establishFailures + (l.disconnect cause).alreadyConnected
    omega
  case torn =>
    show b.tornDown.length + 1 = (l.disconnect cause).alreadyConnected +
      (l.disconnect cause).disconnects
    omega
  case gauge =>
    show (l.disconnect cause).connects = (l.disconnect cause).disconnects +
      (l.disconnect cause).connected.toNat
    rw [hdown, Bool.toNat_false]
    omega
  case shown => exact hdown
  case told =>
    show (l.disconnect cause).messages + b.messages.parkedPublications.length + (owed + 1) =
      b.number + 1
    omega
  case turned =>
    intro _
    show b.number + 1 = (l.disconnect cause).connects + (l.disconnect cause).disconnects
    omega
  case lapsed =>
    show b.number + 1 ≤ (l.disconnect cause).connects + (l.disconnect cause).disconnects ∧
      (l.disconnect cause).connects + (l.disconnect cause).disconnects ≤ b.number + 1 + 1
    omega

theorem Balanced.told_of_passed (hb : Balanced calls owed b) {owed' : Nat}
    {hub : Hub LifecycleCall Nat Message} {called returned : List LifecycleCall}
    (completions : List Completion) (hp : Passed b.messages hub called returned)
    (howed : owed = owed' + called.length) :
    Balanced calls owed' { b with
      messages := hub
      ledger := { b.ledger with messages := b.ledger.messages + returned.length }
      returned := completions } :=
  { hb with
    told := by
      have h := hb.told
      have hlen := hp.calls.length_eq
      rw [List.length_append, List.length_append, parkedCalls, parkedCalls, List.length_map,
        List.length_map] at hlen
      dsimp only
      omega }

theorem Balanced.announce (hb : Balanced calls (owed + 1) b) (hg : b.messages.Good)
    (who : LifecycleCall) (m : Message) : Balanced calls owed (b.announce who m) := by
  have hpassed := passed_publish hg who m
  unfold Books.announce
  dsimp only
  cases hresult : (b.messages.publish who m).result with
  | returned n =>
    rw [hresult] at hpassed
    exact hb.told_of_passed _ hpassed rfl
  | parked =>
    rw [hresult] at hpassed
    exact hb.told_of_passed _ hpassed rfl

theorem Balanced.passOn (hb : Balanced calls owed b) {hub : Hub LifecycleCall Nat Message}
    {received : List (Nat × Option Message)} {returned : List (LifecycleCall × Nat)}
    (hp : Passed b.messages hub [] (returned.map (·.1))) :
    Balanced calls owed (b.passOn hub received returned) := by
  have h := hb.told_of_passed (b.passOn hub received returned).returned hp rfl
  rwa [List.length_map] at h

/-- The release ends a session without a message. -/
theorem Balanced.release (hb : Balanced calls owed b) (hg : b.messages.Good)
    (hidle : b.messages.parkedPublications = []) (hrel : b.released = false) :
    Balanced calls owed b.release := by
  have hclosed : b.messages.close.hub.parkedPublications = [] :=
    (((Hub.close_moves _).turns.sound hg.sound).idle_of_closed (Hub.close_closed _)).1
  have htold := hb.told
  rw [hidle] at htold
  unfold Books.release
  cases hi : b.installed with
  | none =>
    exact { hb with
      told := by
        show b.ledger.messages + b.messages.close.hub.parkedPublications.length + owed = b.number
        rw [hclosed]
        exact htold
      shown := by
        show b.ledger.connected = _
        rw [hb.shown]
        rfl
      turned := nofun }
  | some x =>
    have hup : b.ledger.connected = true := by
      rw [hb.shown, hi]
      rfl
    have hattempts := hb.attempts
    have hdialled := hb.dialled
    have htorn := hb.torn
    have hgauge := hb.gauge
    have hturned := hb.turned hrel
    rw [hup, Bool.toNat_true] at hgauge
    dsimp only [Ledger.disconnects] at htorn hgauge hturned
    constructor
    case attempts => exact hattempts
    case dialled => exact hdialled
    case torn =>
      show b.tornDown.length + 1 = b.ledger.alreadyConnected +
        (b.ledger.cancelled + 1 + b.ledger.closed + b.ledger.signalLost)
      omega
    case gauge =>
      show b.ledger.connects =
        b.ledger.cancelled + 1 + b.ledger.closed + b.ledger.signalLost + Bool.toNat false
      rw [Bool.toNat_false]
      omega
    case shown => rfl
    case told =>
      show b.ledger.messages + b.messages.close.hub.parkedPublications.length + owed = b.number
      rw [hclosed]
      exact htold
    case turned => exact nofun
    case lapsed =>
      show b.number ≤ b.ledger.connects +
          (b.ledger.cancelled + 1 + b.ledger.closed + b.ledger.signalLost) ∧
        b.ledger.connects + (b.ledger.cancelled + 1 + b.ledger.closed + b.ledger.signalLost) ≤
          b.number + 1
      omega

end balance

/-! ## Deeds -/

section deeds

variable {step : Step} {call : Nat} {owner : Nat → Option CauseHandle} {t t' : Scene}
  {log : List Transition} {calls owed : Nat}

/-- **A transition is counted, and its message is published or parked.** A connect is counted with
it. -/
theorem Occurs.balanced {τ : Transition} {ready : List Watch} (ho : Occurs step call t τ ready)
    (hv : Valid owner t) (hb : Balanced calls owed t.session.books) :
    Balanced (if τ.caller.installs.isSome then calls + 1 else calls) owed τ.after.books := by
  have hg : t.session.messages.Good := hv.accounted.good
  have hrel := ho.not_released hv
  obtain ⟨hafter, ⟨x, hi, hcaller, hbooks⟩ | ⟨x, fault, cause, hi, hcaller, -, hbooks⟩⟩ := ho.books
  · rw [hafter, hbooks, hcaller]
    exact (hb.install hi hrel x).announce hg _ _
  · rw [hafter, hbooks, hcaller]
    exact (hb.leave hi hrel fault cause).announce hg _ _

theorem Deed.balanced (h : Deed step call owner t log t') (hstep : ¬ step.Connects)
    (hv : Valid owner t) (hb : Balanced calls owed t.session.books) :
    Balanced calls owed t'.session.books := by
  have hg : t.session.messages.Good := hv.accounted.good
  cases h with
  | still _ hbooks _ =>
    rw [hbooks]
    exact hb
  | refuse hconnects => exact absurd hconnects hstep
  | fail hconnects _ => exact absurd hconnects hstep
  | reject hconnects _ _ => exact absurd hconnects hstep
  | turned ho =>
    have hafter := ho.balanced hv hb
    cases ho with
    | join hconnects _ _ _ => exact absurd hconnects hstep
    | leave _ _ => exact hafter
    | watch _ _ _ => exact hafter
  | release hr hrel hh =>
    have hidle : t.session.messages.parkedPublications = [] := by
      rw [isHeld, Bool.or_eq_false_iff, Bool.not_eq_false', List.isEmpty_iff] at hh
      exact hh.2
    show Balanced _ _ t.session.release.books
    rw [books_release]
    exact hb.release hg hidle hrel
  | mail _ hh =>
    show Balanced _ _ (t.session.passOn _ _ _).books
    rw [books_passOn]
    exact hb.passOn (hh.passed hg)

theorem Deeds.balanced (h : Deeds step call owner t log t') (hstep : ¬ step.Connects)
    (hv : Valid owner t) (hb : Balanced calls owed t.session.books) :
    Balanced calls owed t'.session.books := by
  induction h with
  | refl _ => exact hb
  | head hdeed _ ih => exact ih ((hdeed.turns hv).valid hv) (hdeed.balanced hstep hv hb)

theorem balanced_settle (hv : Valid owner t) (hr : t.ready = [])
    (hb : Balanced calls owed t.session.books) : Balanced calls owed t.session.settle.books := by
  have hdeeds : Deeds .dropSignal 0 owner t _ _ := settle_deeds hv hr
  exact hdeeds.balanced (fun h => h) hv hb

/-- **Every connect is counted once.** -/
theorem balanced_connect (hv : Valid owner t) (hr : t.ready = []) (hh : t.session.hasHandle = true)
    (hb : Balanced calls owed t.session.books) (call : Nat) (options : Options) :
    Balanced (calls + 1) owed (t.session.connect call options).1.books := by
  rcases connect_cases t.session call options with ⟨e, -, hconnect, -⟩ |
    ⟨-, hfail, hconnect, -⟩ | ⟨-, hok, -, hconnect, -⟩ | ⟨-, hok, hi, hconnect, -⟩
  · rw [hconnect]
    exact hb.refuse
  · rw [hconnect, establish_of_fail hfail]
    exact hb.fail
  · have hledger : t.session.establish.1.ledger = t.session.ledger :=
      congrArg Books.ledger (books_establish hok)
    rw [hconnect, books_reject, books_establish hok, hledger]
    exact hb.reject _ _
  · have hjoin : Occurs (.connect options) call t _ t.ready := .join trivial hh hok hi
    have hsettled := balanced_settle ((hjoin.turns hv).valid hv) hr (hjoin.balanced hv hb)
    rw [hconnect]
    exact hsettled

theorem balanced_connectAll (hv : Valid owner t) (hr : t.ready = [])
    (hh : t.session.hasHandle = true) (hb : Balanced calls owed t.session.books) (call : Nat)
    (options : Options) (n : Nat) :
    Balanced (calls + n) owed (t.session.connectAll call options n).1.books := by
  induction n generalizing t calls with
  | zero => exact hb
  | succ n ih =>
    have hstep : Step.Connects (.connect options) := trivial
    have hfirst : Deeds (.connect options) call owner t _ _ := connect_deeds hv hr hstep hh options
    have hheld := ((hfirst.turns hv).hasHandle nofun nofun).trans hh
    have hb' := balanced_connect hv hr hh hb call options
    rw [connectAll_succ, Nat.add_comm n 1, ← Nat.add_assoc]
    generalize (t.session.connect call options).1 = s at hfirst hheld hb' ⊢
    exact ih (hfirst.valid hv) hr hheld hb'

end deeds

/-! ## Steps -/

/-- The connects that a step makes. -/
def Step.threads : Step → Nat
  | connect _ => 1
  | race n _ => n
  | _ => 0

namespace Run

/-- The connects made in some steps. -/
def connectCalls (r : Run) : List Step → Nat
  | [] => 0
  | st :: steps =>
    (if r.session.hasHandle then st.threads else 0) + (r.next st).connectCalls steps

/-- Whether the installed session goes with the state in a step: the state is released, and no turn
took the session away before. -/
def endsByRelease (r : Run) (st : Step) : Bool :=
  r.session.isConnected && (r.next st).session.released &&
    (r.next st).session.cycle.number == r.session.cycle.number

/-- The sessions that go with the state in some steps. -/
def lapses (r : Run) : List Step → Nat
  | [] => 0
  | st :: steps => (r.endsByRelease st).toNat + (r.next st).lapses steps

end Run

section steps

variable {r : Run} {st : Step} {owner : Nat → Option CauseHandle} {t t' t₀ : Scene} {calls : Nat}

theorem Balanced.collect {owed : Nat} {s : Session} (hb : Balanced calls owed s.books) :
    Balanced calls owed s.collect.1.books :=
  ⟨hb.attempts, hb.dialled, hb.torn, hb.gauge, hb.shown, hb.told, hb.turned, hb.lapsed⟩

/-- **A step counts the connects that it makes.** -/
theorem Run.AtRest.balanced_next (hr : r.AtRest) (hb : Balanced calls 0 r.session.books)
    (st : Step) :
    Balanced (calls + if r.session.hasHandle then st.threads else 0) 0
      (r.next st).session.books := by
  have hv := hr.valid.append [st]
  have hquiet : ¬ st.Connects → st.threads = 0 →
      Balanced (calls + if r.session.hasHandle then st.threads else 0) 0
        (r.next st).session.books := by
    intro hstep hzero
    rw [hzero, ite_self, Nat.add_zero]
    exact ((hr.deeds st).balanced hstep hv hb).collect
  cases st with
  | connect options =>
    refine Balanced.collect ?_
    rw [Step.act, byHolder]
    split
    · rename_i hh
      exact balanced_connect hv rfl hh hb _ options
    · exact hb
  | race n options =>
    refine Balanced.collect ?_
    rw [Step.act, byHolder]
    split
    · rename_i hh
      exact balanced_connectAll hv rfl hh hb _ options n
    · exact hb
  | _ => exact hquiet (fun h => h) rfl

/-- In a step that makes no connects at most one session ends. -/
theorem Turns.number (h : Turns st owner t t') (hstep : ¬ st.Connects) (hv : Valid owner t)
    (hs : Signalled t.ready t.session.life t.signals) :
    t'.session.trail.number = t.session.trail.number ∧
        (t'.session.installed = t.session.installed ∨ t'.session.released = true) ∨
      t'.session.trail.number = t.session.trail.number + 1 ∧ t.session.installed ≠ none ∧
        t'.session.installed = none := by
  induction h with
  | refl => exact Or.inl ⟨rfl, Or.inl rfl⟩
  | @tail u v hturns hturn ih =>
    have hv' := Turns.valid hturns hv
    have hs' := Turns.signalled hturns hv.accounted hs
    obtain ⟨cause, hp⟩ := hturn.pace hv' hs'
    cases hp with
    | stays hnumber hi _ =>
      rw [hnumber]
      rcases ih with ⟨hsame, hu⟩ | ⟨hnext, hne, hu⟩
      · refine Or.inl ⟨hsame, ?_⟩
        rcases hu with hu | hu
        · exact hi.imp_left fun h => h.trans hu
        · exact Or.inr (Turns.released (.single hturn) hv' hs' hu)
      · refine Or.inr ⟨hnext, hne, ?_⟩
        rcases hi with hi | hrel'
        · exact hi.trans hu
        · exact (hturn.valid hv').installed_eq_none hrel'
    | joins hconnects _ _ _ _ _ => exact absurd hconnects hstep
    | ends hrel' hi _ hi' ht₀ ht =>
      rcases ih with ⟨hsame, hu⟩ | ⟨-, -, hu⟩
      · refine Or.inr ⟨?_, ?_, hi'⟩
        · rw [number_turnCycle hv'.orderly hrel' ht₀ ht, hsame]
        · rcases hu with hu | hu
          · rw [← hu, hi]
            exact nofun
          · rw [hrel'] at hu
            cases hu
      · rw [hu] at hi
        cases hi

theorem Turns.number_of_released (h : Turns st owner t t') (hv : Valid owner t)
    (hs : Signalled t.ready t.session.life t.signals) (hrel : t.session.released = true) :
    t'.session.trail.number = t.session.trail.number := by
  induction h with
  | refl => rfl
  | tail hturns hturn ih =>
    have hp := hturn.passage (Turns.valid hturns hv) (Turns.signalled hturns hv.accounted hs)
    exact (hp.number.2 (Turns.released hturns hv hs hrel)).2.trans ih

theorem Run.AtRest.not_released_of_connects (hr : r.AtRest) (hstep : st.Connects)
    (hrel : r.session.released = false) : (r.next st).session.released = false := by
  have hheld : (r.next st).session.hasHandle = r.session.hasHandle :=
    (hr.goes st).turns.hasHandle (fun h => (h ▸ hstep : Step.Connects .disown))
      fun name h => (h ▸ hstep : Step.Connects (.dropClone name))
  cases hh : r.session.hasHandle with
  | true => exact (hr.next st).valid.not_released_of_handle (hheld.trans hh)
  | false =>
    have hidle : (r.next st).session = r.session.collect.1 := by
      refine congrArg (fun s : Session => s.collect.1) ?_
      cases st with
      | connect options =>
        rw [Step.act, byHolder, if_neg (by simp [hh])]
        rfl
      | race n options =>
        rw [Step.act, byHolder, if_neg (by simp [hh])]
        rfl
      | _ => exact hstep.elim
    rw [hidle]
    exact hrel

/-- After the release no session is installed, so the balance says by the number of the cycle
whether one went with the state. -/
theorem Balanced.lapsed_of_released {b : Books} (hb : Balanced calls 0 b) (hi : b.installed = none) :
    b.ledger.connects + b.ledger.disconnects = b.number + b.number % 2 := by
  have hgauge := hb.gauge
  have hlapsed := hb.lapsed
  have hdown : b.ledger.connected = false := by
    rw [hb.shown, hi]
    rfl
  rw [hdown, Bool.toNat_false] at hgauge
  omega

/-- **A session that goes with the state is counted without a turn.** -/
theorem Run.AtRest.turned_next (hr : r.AtRest) (hb : Balanced calls 0 r.session.books)
    {calls' lapses : Nat} (hb' : Balanced calls' 0 (r.next st).session.books)
    (hlapses : r.session.cycle.number + lapses =
      r.session.ledger.connects + r.session.ledger.disconnects) :
    (r.next st).session.cycle.number + (lapses + (r.endsByRelease st).toNat) =
      (r.next st).session.ledger.connects + (r.next st).session.ledger.disconnects := by
  have hr' := hr.next st
  -- Only the step that releases the state can end a session without a turn of the cycle.
  cases hrel' : (r.next st).session.released with
  | false =>
    have hrel : r.session.released = false := by
      refine Bool.eq_false_iff.mpr fun hrel => ?_
      rw [hr.released_next hrel] at hrel'
      cases hrel'
    have hnone : r.endsByRelease st = false := by
      rw [Run.endsByRelease, hrel', Bool.and_false, Bool.false_and]
    have hturned : r.session.cycle.number =
        r.session.ledger.connects + r.session.ledger.disconnects := hb.turned hrel
    have hturned' : (r.next st).session.cycle.number =
        (r.next st).session.ledger.connects + (r.next st).session.ledger.disconnects :=
      hb'.turned hrel'
    rw [hnone, Bool.toNat_false]
    omega
  | true =>
    have hgone' : (r.next st).session.ledger.connects + (r.next st).session.ledger.disconnects =
        (r.next st).session.cycle.number + (r.next st).session.cycle.number % 2 :=
      hb'.lapsed_of_released (hr'.valid.installed_eq_none hrel')
    have hv := hr.valid.append [st]
    cases hrel : r.session.released with
    | true =>
      have hinst := hr.valid.installed_eq_none hrel
      have hgone : r.session.ledger.connects + r.session.ledger.disconnects =
          r.session.cycle.number + r.session.cycle.number % 2 := hb.lapsed_of_released hinst
      have hsame : (r.next st).session.cycle.number = r.session.cycle.number :=
        Turns.number_of_released (hr.goes st).turns hv hr.signalled hrel
      have hidle : r.session.isConnected = false :=
        Bool.eq_false_iff.mpr fun h => isConnected_iff.mp h hinst
      rw [Run.endsByRelease, hidle, Bool.false_and, Bool.false_and, Bool.toNat_false]
      omega
    | false =>
      have hstep : ¬ st.Connects := fun h => by
        rw [hr.not_released_of_connects h hrel] at hrel'
        cases hrel'
      have hturned : r.session.cycle.number =
          r.session.ledger.connects + r.session.ledger.disconnects := hb.turned hrel
      have hgauge : r.session.ledger.connects =
          r.session.ledger.disconnects + r.session.ledger.connected.toNat := hb.gauge
      have hone := Bool.toNat_le r.session.ledger.connected
      have hshown : r.session.ledger.connected = r.session.isConnected :=
        hb.shown.trans Option.isSome_map
      rw [Run.endsByRelease, hrel', Bool.and_true]
      rcases Turns.number (hr.goes st).turns hstep hv hr.signalled with ⟨hsame, -⟩ |
        ⟨hnext, hne, -⟩
      · have hsame' : (r.next st).session.cycle.number = r.session.cycle.number := hsame
        rw [hsame', beq_self_eq_true, Bool.and_true, ← hshown]
        rw [hsame'] at hgone'
        omega
      · have hnext' : (r.next st).session.cycle.number = r.session.cycle.number + 1 := hnext
        have hup : r.session.ledger.connected = true := hshown.trans (isConnected_iff.mpr hne)
        rw [hnext', beq_eq_false_iff_ne.mpr (Nat.succ_ne_self _), Bool.and_false, Bool.toNat_false]
        rw [hnext'] at hgone'
        rw [hup, Bool.toNat_true] at hgauge
        omega

end steps

/-! ## Runs -/

section runs

variable {r : Run} {calls lapses : Nat}

theorem Run.AtRest.balanced_extend (hr : r.AtRest) (hb : Balanced calls 0 r.session.books)
    (hlapses : r.session.cycle.number + lapses =
      r.session.ledger.connects + r.session.ledger.disconnects) (steps : List Step) :
    Balanced (calls + r.connectCalls steps) 0 (r.extend steps).session.books ∧
      (r.extend steps).session.cycle.number + (lapses + r.lapses steps) =
        (r.extend steps).session.ledger.connects + (r.extend steps).session.ledger.disconnects := by
  induction steps generalizing r calls lapses with
  | nil => exact ⟨hb, hlapses⟩
  | cons st steps ih =>
    have hnext := hr.balanced_next hb st
    rw [Run.connectCalls, Run.lapses, ← Nat.add_assoc, ← Nat.add_assoc lapses]
    exact ih (hr.next st) hnext (hr.turned_next hb hnext hlapses)

end runs

/-- **The ledger balances.**

Between two steps of a run, every connect that was made, each one of a race, is counted by what
became of it; the establishes are those of the connects that were not refused for their options; and
every connection that was established is installed, rejected or ended, the last two with a teardown.
The gauge is the difference of connects and disconnects, and shows whether a session is installed.
A message was published for each connect and each disconnect, except for those whose publish is
parked and for the session, if there was one, that went with the state. -/
theorem ledger_balances (settings : Settings) (players : List Player) (catalog : List Packet.Entry)
    (steps : List Step) :
    let begin' := run settings players catalog []
    let s := (run settings players catalog steps).session
    let l := s.ledger
    begin'.connectCalls steps =
        l.connects + l.invalidOptions + l.establishFailures + l.alreadyConnected ∧
      s.connector.establishCalls = l.connects + l.establishFailures + l.alreadyConnected ∧
      s.connector.teardownCalls = l.alreadyConnected + l.disconnects ∧
      l.connects = l.disconnects + l.connected.toNat ∧
      l.connected = s.isConnected ∧
      (s.released = true → l.connected = false) ∧
      l.messages + s.messages.parkedPublications.length + begin'.lapses steps =
        l.connects + l.disconnects ∧
      begin'.lapses steps ≤ 1 := by
  intro begin' s l
  have hnew : begin'.AtRest := run_atRest settings players catalog []
  have hb₀ : Balanced 0 0 begin'.session.books :=
    ⟨rfl, rfl, rfl, rfl, rfl, rfl, fun _ => rfl, Nat.le_refl _, Nat.le_succ _⟩
  have hlapses₀ : begin'.session.cycle.number + 0 =
      begin'.session.ledger.connects + begin'.session.ledger.disconnects := rfl
  obtain ⟨hb, hlapses⟩ := hnew.balanced_extend hb₀ hlapses₀ steps
  rw [Nat.zero_add] at hb hlapses
  have hr : (run settings players catalog steps).AtRest := run_atRest settings players catalog steps
  have hshown : l.connected = s.isConnected := hb.shown.trans Option.isSome_map
  have hnumber : s.cycle.number + begin'.lapses steps = l.connects + l.disconnects := hlapses
  have htold : l.messages + s.messages.parkedPublications.length + 0 = s.cycle.number := hb.told
  have hlapsed : l.connects + l.disconnects ≤ s.cycle.number + 1 := hb.lapsed.2
  refine ⟨hb.attempts, hb.dialled, hb.torn, hb.gauge, hshown, fun hrel => ?_, ?_, ?_⟩
  · rw [hshown]
    exact Bool.eq_false_iff.mpr fun h => isConnected_iff.mp h (hr.valid.installed_eq_none hrel)
  · omega
  · omega

end Session

end Switchboard
