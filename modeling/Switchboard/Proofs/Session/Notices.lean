import Switchboard.Proofs.Hub.Endings
import Switchboard.Proofs.Session.Parking

/-!
# Every transition is announced once

What reaches the message hub, and when.

**Three kinds** (`Transition.Joins`, `Leaves`, `Ends`). A transition says who made it, for which cause
and with which message. A session that is installed is followed by its end, and an end by the next
session (`Alternates`).

**The hub** (`Posted`). Apart from what its holders do, the message hub is handed the messages of the
transitions and nothing else, one publish each.

**Late results.** A disconnect whose publish was parked comes back with the fault of its teardown,
and that fault is in its message (`Told.results`).

**Main statements** (`Deeds.alternating`, `Run.AtRest.told`).
-/

namespace Switchboard

/-! ## Publishes of one value -/

namespace Hub

variable {π ρ α : Type} {h h' : Hub π ρ α}

/-- Every parked publish is the last of its call. -/
def Plain (h : Hub π ρ α) : Prop := ∀ q ∈ h.parkedPublications, q.later = []

theorem Plain.left (hp : h.Plain) : h.left = 0 := by
  refine List.sum_eq_zero fun n hn => ?_
  obtain ⟨q, hq, rfl⟩ := List.mem_map.mp hn
  rw [hp q hq]
  rfl

theorem Plain.standings (hp : h.Plain) :
    ∀ x ∈ standings (⟨h, []⟩ : Scene π ρ α), x.later = [] := by
  intro x hx
  obtain ⟨q, hq, rfl⟩ := List.mem_map.mp hx
  exact hp q hq

theorem plain_of_standings (hp : ∀ x ∈ standings (⟨h, []⟩ : Scene π ρ α), x.later = []) :
    h.Plain :=
  fun q hq => hp q.standing (List.mem_map_of_mem hq)

theorem Plain.turns {log : List (Event π ρ α)} (hp : h.Plain) (hs : h.Sound)
    (ht : Turns ⟨h, []⟩ log ⟨h', []⟩) (hcalls : callsIn log = []) : h'.Plain :=
  plain_of_standings (ht.plain hs hcalls hp.standings)

theorem Plain.publish (hp : h.Plain) (hs : h.Sound) (hc : h.closed = false) (caller : π) (v : α) :
    (h.publish caller v).hub.Plain ∧ (h.publish caller v).hub.published = h.published + 1 := by
  obtain ⟨log, -, hmoves⟩ := publishAll_moves hc caller [] v []
  have hs' : ({ h with published := h.published + 1 } : Hub π ρ α).Sound :=
    ⟨hs.nodup, hs.named, hs.fits⟩
  have hplain := hmoves.turns.plain hs' hmoves.callsIn fun x hx => by
    rcases List.mem_cons.mp hx with rfl | hx
    · rfl
    · exact hp.standings x hx
  have hopen : (h.publishAll caller [] [v]).hub.closed = false :=
    (publishEach_closed caller [] [v] ⟨h, 0, false, []⟩).trans hc
  have hpublished := (hmoves.turns.published hs' hmoves.callsIn).1 hopen
  have hleft : unsent (⟨(h.publishAll caller [] [v]).hub, []⟩ : Scene π ρ α) = 0 := by
    rw [unsent_eq]
    exact (plain_of_standings hplain).left
  have hcarried : unsent (⟨{ h with published := h.published + 1 },
      [⟨caller, [], v, h.targets [], 0, []⟩]⟩ : Scene π ρ α) = 0 := by
    have hnone : unsent (⟨h, []⟩ : Scene π ρ α) = 0 := by
      rw [unsent_eq]
      exact hp.left
    exact (Nat.zero_add _).trans hnone
  rw [hleft, hcarried] at hpublished
  exact ⟨plain_of_standings hplain, hpublished⟩

end Hub

/-! ## Kinds of transitions -/

/-- The text of the error with which a call returned. -/
def errorText {β : Type} : Except SessionError β → Option String
  | .ok _ => none
  | .error e => some e.message

namespace Transition

/-- A connect installs a session and says so. -/
def Joins (τ : Transition) (call : Nat) (x : Serial) : Prop :=
  τ.caller = .connect call x ∧ τ.cause = none ∧ τ.message = ⟨.status, "connected", none⟩

/-- A disconnect takes the installed session away and says so, with the error that it returns. -/
def Leaves (τ : Transition) (call : Nat) (fault : Option Fault) : Prop :=
  τ.caller = .disconnect call fault ∧ τ.cause = some .cancelled ∧
    τ.message = ⟨.status, "disconnected", errorText (Session.disconnectResult fault)⟩

/-- A session ends with its connection, and the message tells the cause. -/
def Ends (τ : Transition) (x : Serial) (cause : Cause) : Prop :=
  τ.caller = .termination x ∧ τ.cause = some cause ∧
    τ.message = ⟨.disconnect, "connection closed", some cause.message⟩

end Transition

/-- Sessions are installed and end by turns, from one state of affairs to another. -/
inductive Alternates : Option Serial → List Transition → Option Serial → Prop
  | nil (installed : Option Serial) : Alternates installed [] installed
  | join {τ : Transition} {log : List Transition} {call : Nat} {x : Serial} {o : Option Serial} :
      τ.Joins call x → Alternates (some x) log o → Alternates none (τ :: log) o
  | leave {τ : Transition} {log : List Transition} {call : Nat} {fault : Option Fault} {x : Serial}
      {o : Option Serial} :
      τ.Leaves call fault → Alternates none log o → Alternates (some x) (τ :: log) o
  | finish {τ : Transition} {log : List Transition} {x : Serial} {cause : Cause}
      {o : Option Serial} :
      τ.Ends x cause → Alternates none log o → Alternates (some x) (τ :: log) o

section alternates

variable {o o' o'' : Option Serial} {log log' : List Transition} {τ : Transition}

theorem Alternates.append (h : Alternates o log o') (h' : Alternates o' log' o'') :
    Alternates o (log ++ log') o'' := by
  induction h with
  | nil _ => exact h'
  | join hτ _ ih => exact .join hτ (ih h')
  | leave hτ _ ih => exact .leave hτ (ih h')
  | finish hτ _ ih => exact .finish hτ (ih h')

/-- Where nothing is installed at first, the even entries install and the odd ones end. -/
theorem Alternates.kind (h : Alternates o log o') {i : Nat} (hτ : log[i]? = some τ) :
    if (i + o.toList.length) % 2 = 0 then ∃ call x, τ.Joins call x
    else (∃ call fault, τ.Leaves call fault) ∨ ∃ x cause, τ.Ends x cause := by
  induction h generalizing i with
  | nil _ => cases hτ
  | join hkind _ ih =>
    cases i with
    | zero =>
      obtain rfl := Option.some.inj hτ
      exact ⟨_, _, hkind⟩
    | succ i => exact ih hτ
  | leave hkind _ ih =>
    cases i with
    | zero =>
      obtain rfl := Option.some.inj hτ
      exact Or.inl ⟨_, _, hkind⟩
    | succ i =>
      have hsame : (i + 1 + 1) % 2 = i % 2 := by omega
      have h := ih hτ
      rwa [Option.toList_none, List.length_nil, Nat.add_zero, ← hsame] at h
  | finish hkind _ ih =>
    cases i with
    | zero =>
      obtain rfl := Option.some.inj hτ
      exact Or.inr ⟨_, _, hkind⟩
    | succ i =>
      have hsame : (i + 1 + 1) % 2 = i % 2 := by omega
      have h := ih hτ
      rwa [Option.toList_none, List.length_nil, Nat.add_zero, ← hsame] at h

theorem Alternates.of_ends (h : Alternates o log o')
    (hends : ∀ τ ∈ log, ∃ x cause, τ.Ends x cause) :
    log = [] ∧ o' = o ∨ ∃ τ x cause, log = [τ] ∧ τ.Ends x cause ∧ o = some x ∧ o' = none := by
  cases h with
  | nil _ => exact Or.inl ⟨rfl, rfl⟩
  | @join τ _ _ _ _ hkind _ =>
    obtain ⟨x, cause, hcaller, -⟩ := hends τ (List.mem_cons_self ..)
    rw [hkind.1] at hcaller
    cases hcaller
  | @leave τ _ _ _ _ _ hkind _ =>
    obtain ⟨x, cause, hcaller, -⟩ := hends τ (List.mem_cons_self ..)
    rw [hkind.1] at hcaller
    cases hcaller
  | @finish τ _ x cause _ hkind hrest =>
    cases hrest with
    | nil _ => exact Or.inr ⟨τ, x, cause, rfl, hkind, rfl, rfl⟩
    | @join τ' _ _ _ _ hkind' _ =>
      obtain ⟨y, cause', hcaller, -⟩ := hends τ' (List.mem_cons_of_mem _ (List.mem_cons_self ..))
      rw [hkind'.1] at hcaller
      cases hcaller

end alternates

namespace Session

section deeds

variable {step : Step} {call : Nat} {owner : Nat → Option CauseHandle} {t t' : Scene}
  {log : List Transition} {τ : Transition} {ready : List Watch}

/-- The notice of a disconnect carries the error that the disconnect returns. -/
theorem disconnectNotice_eq (fault : Option Fault) :
    disconnectNotice fault = ⟨.status, "disconnected", errorText (disconnectResult fault)⟩ := by
  cases fault <;> rfl

/-- Who may make a transition, and what it says. -/
theorem Occurs.kind (ho : Occurs step call t τ ready) :
    (∃ x, t.session.installed = none ∧ step.Connects ∧ τ.Joins call x) ∨
      (∃ x fault, t.session.installed = some x ∧ step = .disconnect ∧ τ.Leaves call fault) ∨
      ∃ x cause, t.session.installed = some x ∧ τ.Ends x cause := by
  cases ho with
  | join hstep hh hok hi => exact Or.inl ⟨_, hi, hstep, rfl, rfl, rfl⟩
  | leave hstep hi =>
    exact Or.inr (Or.inl ⟨_, _, hi, hstep, rfl, rfl, disconnectNotice_eq _⟩)
  | watch _ _ hi => exact Or.inr (Or.inr ⟨_, _, hi, rfl, rfl, rfl⟩)

theorem Occurs.installed_after (ho : Occurs step call t τ ready) :
    τ.after.installed = τ.caller.installs := by
  rw [installed, ho.active, Option.map_map]
  exact Option.map_id'

/-- A transition leads from a state without a session to one with a session, or back. -/
theorem Occurs.alternates (ho : Occurs step call t τ ready) :
    Alternates t.session.installed [τ] τ.after.installed := by
  rw [ho.installed_after]
  rcases ho.kind with ⟨x, hi, -, hkind⟩ | ⟨x, fault, hi, -, hkind⟩ | ⟨x, cause, hi, hkind⟩
  · rw [hi, hkind.1]
    exact .join hkind (.nil _)
  · rw [hi, hkind.1]
    exact .leave hkind (.nil _)
  · rw [hi, hkind.1]
    exact .finish hkind (.nil _)

/-- From one state to another sessions are installed and end by turns. Unless the state is released,
the session of the last transition is the one installed; and nothing happens to a released state. -/
structure Alternating (s : Session) (log : List Transition) (s' : Session) : Prop where
  turns : ∃ o, Alternates s.installed log o ∧ (s'.released = false → s'.installed = o)
  gone : s.released = true → log = [] ∧ s'.released = true

theorem Alternating.still {s s' : Session} (hrel : s'.released = s.released)
    (hi : s'.installed = s.installed) : Alternating s [] s' :=
  ⟨⟨_, .nil _, fun _ => hi⟩, fun h => ⟨rfl, hrel.trans h⟩⟩

theorem Alternating.trans {s s' s'' : Session} {log' : List Transition} (h : Alternating s log s')
    (h' : Alternating s' log' s'') : Alternating s (log ++ log') s'' := by
  obtain ⟨o, hfirst, hi⟩ := h.turns
  obtain ⟨o', hrest, hi'⟩ := h'.turns
  constructor
  case turns =>
    cases hrel : s'.released with
    | true =>
      obtain ⟨rfl, hrel'⟩ := h'.gone hrel
      rw [List.append_nil]
      refine ⟨o, hfirst, fun hopen => ?_⟩
      rw [hrel'] at hopen
      cases hopen
    | false =>
      rw [hi hrel] at hrest
      exact ⟨o', hfirst.append hrest, hi'⟩
  case gone =>
    intro hrel
    obtain ⟨rfl, hrel'⟩ := h.gone hrel
    exact h'.gone hrel'

/-- **A deed installs and ends sessions by turns.** -/
theorem Deed.alternating (h : Deed step call owner t log t') (hv : Valid owner t) :
    Alternating t.session log t'.session := by
  cases h with
  | still _ hbooks _ =>
    exact .still (congrArg Books.released hbooks) (congrArg Books.installed hbooks)
  | refuse _ => exact .still rfl rfl
  | fail _ hfail =>
    rw [establish_of_fail hfail]
    exact .still rfl rfl
  | reject _ hok _ =>
    have hbooks := books_establish hok
    exact .still (congrArg Books.released hbooks) (congrArg Books.installed hbooks)
  | turned ho =>
    refine ⟨⟨_, ho.alternates, fun _ => rfl⟩, fun hrel => ?_⟩
    rw [ho.not_released hv] at hrel
    cases hrel
  | release _ _ _ =>
    have hgone : t.session.release.released = true :=
      congrArg Books.released (books_release t.session)
    refine ⟨⟨_, .nil _, fun hopen => ?_⟩, fun _ => ⟨rfl, hgone⟩⟩
    rw [show (t.on t.session.release).session.released = true from hgone] at hopen
    cases hopen
  | mail _ _ =>
    have hbooks := books_passOn t.session
    exact .still (congrArg Books.released (hbooks _ _ _)) (congrArg Books.installed (hbooks _ _ _))

theorem Deeds.alternating (h : Deeds step call owner t log t') (hv : Valid owner t) :
    Alternating t.session log t'.session := by
  induction h with
  | refl _ => exact .still rfl rfl
  | head hdeed _ ih => exact (hdeed.alternating hv).trans (ih ((hdeed.turns hv).valid hv))

/-! ## What reaches the message hub -/

/-- What was done to a message hub, with the messages that it was handed, in the order in which the
publishes began. -/
inductive Posted : Hub LifecycleCall Nat Message → List (LifecycleCall × Message) →
    Hub LifecycleCall Nat Message → Prop
  | none (h : Hub LifecycleCall Nat Message) : Posted h [] h
  | publish {h h' : Hub LifecycleCall Nat Message} {posts : List (LifecycleCall × Message)}
      (who : LifecycleCall) (m : Message) :
      Posted h posts h' → h'.closed = false →
      Posted h (posts ++ [(who, m)]) (h'.publish who m).hub
  | handle {h h' hub : Hub LifecycleCall Nat Message} {posts : List (LifecycleCall × Message)}
      {received : List (Nat × Option Message)} {returned : List (LifecycleCall × Nat)} :
      Posted h posts h' → Handled h' hub received returned → Posted h posts hub
  | close {h h' : Hub LifecycleCall Nat Message} {posts : List (LifecycleCall × Message)} :
      Posted h posts h' → Posted h posts h'.close.hub

/-- What is known of the messages of a session after some transitions, which began with a hub. -/
structure Told (start : Hub LifecycleCall Nat Message) (log : List Transition) (b : Books) :
    Prop where
  posted : Posted start (log.map (·.notice)) b.messages
  owned : b.messages.owned = true
  isOpen : b.released = false → b.messages.closed = false
  plain : b.messages.Plain
  published : b.messages.published = start.published + log.length
  /-- Whoever is parked has made a transition. -/
  parked : ∀ who ∈ parkedCalls b.messages, ∃ τ ∈ log, τ.caller = who
  /-- So has a disconnect that returned. -/
  results : ∀ call fault, .disconnected call fault ∈ b.returned →
    ∃ τ ∈ log, τ.caller = .disconnect call fault

theorem Handled.exists_turns {h hub : Hub LifecycleCall Nat Message}
    {received : List (Nat × Option Message)} {returned : List (LifecycleCall × Nat)}
    (hh : Handled h hub received returned) (hg : h.Good) :
    ∃ log, Hub.Turns ⟨h, []⟩ log ⟨hub, []⟩ ∧ Hub.callsIn log = [] := by
  cases hh with
  | subscribe n => exact ⟨_, h.subscribe_turns n, rfl⟩
  | tryReceive id => exact ⟨_, (h.tryReceive_moves id).turns, (h.tryReceive_moves id).callsIn⟩
  | receive id call =>
    exact ⟨_, Hub.receive_turns hg.sound hg.anchored call, (h.tryReceive_moves id).callsIn⟩
  | cancel id => exact ⟨_, h.cancel_turns id, (Hub.cancelLog_spec h id).1⟩
  | abandon id =>
    refine ⟨_, Hub.abandon_turns hg.sound, ?_⟩
    rw [Hub.abandonLog, Hub.callsIn_append, (Hub.cancelLog_spec h id).1]
    rfl

/-- Holders of subscriptions publish nothing. -/
theorem Handled.sent {h hub : Hub LifecycleCall Nat Message}
    {received : List (Nat × Option Message)} {returned : List (LifecycleCall × Nat)}
    (hh : Handled h hub received returned) (hg : h.Good) : hub.sent = h.sent := by
  cases hh with
  | subscribe n =>
    obtain ⟨log, hturns, hcalls⟩ := (Handled.subscribe (h := h) n).exists_turns hg
    refine hturns.sent hg.sound hcalls ?_
    unfold Hub.subscribe
    split <;> rfl
  | tryReceive id => exact Hub.tryReceive_sent hg.sound id
  | receive id call => exact Hub.receive_sent hg.sound id call
  | cancel id => exact Hub.cancel_sent hg.sound id
  | abandon id => exact Hub.abandon_sent hg.sound id

theorem Handled.owned {h hub : Hub LifecycleCall Nat Message}
    {received : List (Nat × Option Message)} {returned : List (LifecycleCall × Nat)}
    (hh : Handled h hub received returned) (ho : h.owned = true) :
    hub.closed = h.closed ∧ hub.owned = true := by
  cases hh with
  | subscribe n => exact Hub.subscribe_owned ho n
  | tryReceive id => exact Hub.tryReceive_owned ho
  | receive id call => exact Hub.receive_owned ho call
  | cancel id => exact Hub.cancel_owned ho
  | abandon id =>
    have hcancel : (h.cancel id).hub.closed = h.closed ∧ _ := Hub.cancel_owned ho
    exact hcancel

section told

variable {start : Hub LifecycleCall Nat Message} {b b' : Books}

theorem Told.of_eq (ht : Told start log b) (hm : b'.messages = b.messages)
    (hrel : b'.released = b.released) (hret : b'.returned = b.returned) : Told start log b' := by
  refine ⟨?_, ?_, ?_, ?_, ?_, ?_, ?_⟩
  · rw [hm]; exact ht.posted
  · rw [hm]; exact ht.owned
  · rw [hm, hrel]; exact ht.isOpen
  · rw [hm]; exact ht.plain
  · rw [hm]; exact ht.published
  · rw [hm]; exact ht.parked
  · rw [hret]; exact ht.results

theorem mem_of_read {received : List (Nat × Option Message)} {n : Nat} {fault : Option Fault}
    (h : .disconnected n fault ∈ (b.read received).returned) : .disconnected n fault ∈ b.returned := by
  rcases List.mem_append.mp h with h | h
  · exact h
  · obtain ⟨r, -, hr⟩ := List.mem_map.mp h
    cases hr

theorem Told.announce (ht : Told start log b) (hg : b.messages.Good) (hrel : b.released = false)
    (τ : Transition) : Told start (log ++ [τ]) (b.announce τ.caller τ.message) := by
  have hopen := ht.isOpen hrel
  have hpassed := passed_publish hg τ.caller τ.message
  obtain ⟨hplain, hpublished⟩ := ht.plain.publish hg.sound hopen τ.caller τ.message
  constructor
  case posted =>
    rw [List.map_append]
    exact .publish _ _ ht.posted hopen
  case owned => exact (Hub.publishAll_frame _ _ _ _).1.trans ht.owned
  case isOpen => exact fun _ => (Hub.publishEach_closed τ.caller [] [τ.message] _).trans hopen
  case plain => exact hplain
  case published =>
    rw [List.length_append]
    refine Eq.trans hpublished ?_
    rw [ht.published, Nat.add_assoc]
    rfl
  case parked =>
    intro who hwho
    have hmem := hpassed.calls.mem_iff.mpr (List.mem_append_left _ hwho)
    rcases List.mem_append.mp hmem with hmem | hmem
    · obtain ⟨σ, hσ, hcaller⟩ := ht.parked who hmem
      exact ⟨σ, List.mem_append_left _ hσ, hcaller⟩
    · exact ⟨τ, List.mem_append_right _ (List.mem_singleton_self τ),
        (List.mem_singleton.mp hmem).symm⟩
  case results =>
    intro n fault hmem
    obtain ⟨σ, hσ, hcaller⟩ := ht.results n fault (mem_of_read hmem)
    exact ⟨σ, List.mem_append_left _ hσ, hcaller⟩

theorem Told.passOn (ht : Told start log b) (hg : b.messages.Good)
    {hub : Hub LifecycleCall Nat Message} {received : List (Nat × Option Message)}
    {returned : List (LifecycleCall × Nat)} (hh : Handled b.messages hub received returned) :
    Told start log (b.passOn hub received returned) := by
  have hpassed := hh.passed hg
  obtain ⟨events, hturns, hcalls⟩ := hh.exists_turns hg
  have hplain := ht.plain.turns hg.sound hturns hcalls
  constructor
  case posted => exact .handle ht.posted hh
  case owned => exact (hh.owned ht.owned).2
  case isOpen => exact fun hrel => (hh.owned ht.owned).1.trans (ht.isOpen hrel)
  case plain => exact hplain
  case published =>
    have hsent : hub.published + hub.left = b.messages.published + b.messages.left := hh.sent hg
    rw [hplain.left, ht.plain.left, Nat.add_zero, Nat.add_zero] at hsent
    exact hsent.trans ht.published
  case parked =>
    intro who hwho
    have hmem := hpassed.calls.mem_iff.mpr (List.mem_append_left _ hwho)
    rw [List.append_nil] at hmem
    exact ht.parked who hmem
  case results =>
    intro n fault hmem
    rcases List.mem_append.mp hmem with hmem | hmem
    · exact ht.results n fault (mem_of_read hmem)
    · obtain ⟨r, hr, hcompletion⟩ := List.mem_filterMap.mp hmem
      have hparked : r.1 ∈ parkedCalls b.messages := by
        have hin := hpassed.calls.mem_iff.mpr
          (List.mem_append_right _ (List.mem_map_of_mem hr))
        rwa [List.append_nil] at hin
      obtain ⟨τ, hτ, hcaller⟩ := ht.parked r.1 hparked
      refine ⟨τ, hτ, hcaller.trans ?_⟩
      cases hcall : r.1 with
      | disconnect n' fault' =>
        rw [hcall] at hcompletion
        cases hcompletion
        rfl
      | _ =>
        rw [hcall] at hcompletion
        cases hcompletion

theorem Told.release (ht : Told start log b) (hg : b.messages.Good) : Told start log b.release := by
  have hidle : b.messages.close.hub.parkedPublications = [] :=
    ((b.messages.close_moves.turns.sound hg.sound).idle_of_closed (Hub.close_closed _)).1
  have hclosed : Told start log
      { b.read b.messages.close.received with
        messages := b.messages.close.hub, released := true } := by
    constructor
    case posted => exact .close ht.posted
    case owned => exact b.messages.close_moves.frame.1.trans ht.owned
    case isOpen => exact nofun
    case plain =>
      intro q hq
      rw [hidle] at hq
      cases hq
    case published => exact hg.sound.published_close.trans ht.published
    case parked =>
      intro who hwho
      rw [parkedCalls, hidle] at hwho
      cases hwho
    case results => exact fun n fault hmem => ht.results n fault (mem_of_read hmem)
  unfold Books.release
  cases b.installed <;> exact hclosed.of_eq rfl rfl rfl

/-- **A deed keeps what is known**, with its transitions. -/
theorem Deed.told {before : List Transition} (h : Deed step call owner t log t') (hv : Valid owner t)
    (ht : Told start before t.session.books) : Told start (before ++ log) t'.session.books := by
  have hg : t.session.messages.Good := hv.accounted.good
  cases h with
  | still _ hbooks _ =>
    rw [hbooks, List.append_nil]
    exact ht
  | refuse _ =>
    rw [List.append_nil]
    exact ht.of_eq rfl rfl rfl
  | fail _ hfail =>
    rw [establish_of_fail hfail, List.append_nil]
    exact ht.of_eq rfl rfl rfl
  | reject _ hok _ =>
    show Told start _ (Session.reject _ _).books
    rw [books_reject, books_establish hok, List.append_nil]
    exact ht.of_eq rfl rfl rfl
  | @turned τ ready ho =>
    obtain ⟨hafter, -⟩ := ho.books
    obtain ⟨hmessages, hreleased, hreturned⟩ := ho.apart
    have hsame : Told start before τ.session.books := ht.of_eq hmessages hreleased hreturned
    have hg' : τ.session.messages.Good := by
      rw [hmessages]
      exact hg
    show Told start _ τ.after.books
    rw [hafter]
    exact hsame.announce hg' (hreleased.trans (ho.not_released hv)) τ
  | release _ _ _ =>
    show Told start _ t.session.release.books
    rw [books_release, List.append_nil]
    exact ht.release hg
  | mail _ hh =>
    show Told start _ (t.session.passOn _ _ _).books
    rw [books_passOn, List.append_nil]
    exact ht.passOn hg hh

theorem Deeds.told {before : List Transition} (h : Deeds step call owner t log t')
    (hv : Valid owner t) (ht : Told start before t.session.books) :
    Told start (before ++ log) t'.session.books := by
  induction h generalizing before with
  | refl _ =>
    rw [List.append_nil]
    exact ht
  | head hdeed _ ih =>
    rw [← List.append_assoc]
    exact ih ((hdeed.turns hv).valid hv) (hdeed.told hv ht)

end told

end deeds

/-! ## Runs -/

section runs

variable {r : Run}

theorem Run.chronicle_append (r : Run) (steps more : List Step) :
    r.chronicle (steps ++ more) = r.chronicle steps ++ (r.extend steps).chronicle more := by
  induction steps generalizing r with
  | nil => rfl
  | cons st steps ih =>
    rw [List.cons_append, chronicle, chronicle, ih, List.append_assoc]
    rfl

theorem Run.extend_steps (r : Run) (steps : List Step) :
    (r.extend steps).steps = r.steps ++ steps := by
  induction steps generalizing r with
  | nil => exact (List.append_nil _).symm
  | cons st steps ih =>
    refine (ih _).trans ?_
    show (r.steps ++ [st]) ++ steps = _
    rw [List.append_assoc]
    rfl

theorem Run.exists_of_mem_chronicle {steps : List Step} {τ : Transition}
    (hτ : τ ∈ r.chronicle steps) :
    ∃ before st after, steps = before ++ st :: after ∧ τ ∈ (r.extend before).log st := by
  induction steps generalizing r with
  | nil => cases hτ
  | cons st steps ih =>
    rcases List.mem_append.mp hτ with hτ | hτ
    · exact ⟨[], st, steps, rfl, hτ⟩
    · obtain ⟨before, st', after, rfl, hmem⟩ := ih hτ
      exact ⟨st :: before, st', after, rfl, hmem⟩

/-- **What is known of the messages of a run.** -/
theorem Run.AtRest.told {start : Hub LifecycleCall Nat Message} {before : List Transition}
    (hr : r.AtRest) (ht : Told start before r.session.books) (steps : List Step) :
    Told start (before ++ r.chronicle steps) (r.extend steps).session.books := by
  induction steps generalizing r before with
  | nil =>
    rw [chronicle, List.append_nil]
    exact ht
  | cons st steps ih =>
    have hstep := (hr.deeds st).told (hr.valid.append [st]) ht
    rw [chronicle, ← List.append_assoc]
    refine ih (hr.next st) ?_
    exact { hstep with results := fun n fault hmem => absurd hmem List.not_mem_nil }

/-- **Over a run sessions are installed and end by turns.** -/
theorem Run.AtRest.alternating (hr : r.AtRest) (steps : List Step) :
    Alternating r.session (r.chronicle steps) (r.extend steps).session := by
  induction steps generalizing r with
  | nil => exact .still rfl rfl
  | cons st steps ih =>
    have hstep := (hr.deeds st).alternating (hr.valid.append [st])
    have hnext : Alternating r.session (r.log st) (r.next st).session := ⟨hstep.turns, hstep.gone⟩
    exact hnext.trans (ih (hr.next st))

/-! ## Steps and their transitions -/

theorem Run.AtRest.kind (hr : r.AtRest) {st : Step} {τ : Transition} (hτ : τ ∈ r.log st) :
    (st.Connects ∧ ∃ x, τ.Joins r.steps.length x) ∨
      (st = .disconnect ∧ ∃ fault, τ.Leaves r.steps.length fault) ∨ ∃ x cause, τ.Ends x cause := by
  obtain ⟨log, t, ready, hdeeds, ho⟩ := (hr.deeds st).exists_occurs hτ
  rcases ho.kind with ⟨x, -, hstep, hkind⟩ | ⟨-, fault, -, hstep, hkind⟩ | ⟨x, cause, -, hkind⟩
  · exact Or.inl ⟨hstep, x, hkind⟩
  · exact Or.inr (Or.inl ⟨hstep, fault, hkind⟩)
  · exact Or.inr (Or.inr ⟨x, cause, hkind⟩)

/-- What a connect comes to, with its transitions. -/
def ConnectNews (call : Nat) (outcome : Outcome (Except SessionError Serial))
    (log : List Transition) : Prop :=
  (log = [] ∧ ∃ e, outcome = .returned (.error e)) ∨
    ∃ τ x, log = [τ] ∧ τ.Joins call x ∧
      outcome = if τ.returned then .returned (.ok x) else .parked

/-- What a disconnect comes to, with its transitions. -/
def DisconnectNews (call : Nat) (outcome : Outcome (Except SessionError Unit))
    (log : List Transition) : Prop :=
  (log = [] ∧ outcome = .returned (.error .notConnected)) ∨
    ∃ τ fault, log = [τ] ∧ τ.Leaves call fault ∧
      outcome = if τ.returned then .returned (disconnectResult fault) else .parked

section news

variable {owner : Nat → Option CauseHandle} {t : Scene}

theorem connect_news (hv : Valid owner t) (hq : Quiet t.session) (hh : t.session.hasHandle = true)
    (call : Nat) (options : Options) :
    ConnectNews call (t.session.connect call options).2 (t.session.connectLog call options) := by
  rcases connect_outcome hv hq hh call options with
    ⟨e, -, hconnect, hlog⟩ | ⟨-, -, hconnect, hlog⟩ | ⟨-, -, -, hconnect, hlog⟩ |
      ⟨-, -, -, hconnect, hlog⟩
  · rw [hconnect, hlog]
    exact Or.inl ⟨rfl, e, rfl⟩
  · rw [hconnect, hlog]
    exact Or.inl ⟨rfl, _, rfl⟩
  · rw [hconnect, hlog]
    exact Or.inl ⟨rfl, _, rfl⟩
  · rw [hconnect, hlog]
    exact Or.inr ⟨_, _, rfl, ⟨rfl, rfl, rfl⟩, rfl⟩

theorem connectAll_news (hv : Valid owner t) (hr : t.ready = []) (hq : Quiet t.session)
    (hh : t.session.hasHandle = true) (call : Nat) (options : Options) (n : Nat) :
    ∃ logs, t.session.connectAllLog call options n = logs.flatten ∧
      List.Forall₂ (ConnectNews call) (t.session.connectAll call options n).2 logs := by
  induction n generalizing t with
  | zero => exact ⟨[], rfl, .nil⟩
  | succ n ih =>
    have hstep : Step.Connects (.connect options) := trivial
    have hgoes : Goes (.connect options) owner t _ := connect_goes hv hr hstep hh call options
    have hheld := (hgoes.turns.hasHandle nofun nofun).trans hh
    have hfirst := connect_news hv hq hh call options
    rw [connectAll_succ, connectAllLog]
    generalize t.session.connect call options = p at hgoes hheld hfirst ⊢
    obtain ⟨logs, hlog, hnews⟩ := ih (hgoes.turns.valid hv) hgoes.ready (hgoes.quiet hq) hheld
    refine ⟨_ :: logs, ?_, .cons hfirst hnews⟩
    rw [List.flatten_cons]
    exact congrArg _ hlog

theorem disconnect_news (hv : Valid owner t) (hh : t.session.hasHandle = true) (call : Nat) :
    DisconnectNews call (t.session.disconnect call).2 (t.session.disconnectLog call) := by
  rcases disconnect_outcome hv hh call with ⟨-, hdisconnect, hlog⟩ |
    ⟨x, fault, -, hcaller, hmessage, hdisconnect, hlog⟩
  · rw [hdisconnect, hlog]
    exact Or.inl ⟨rfl, rfl⟩
  · rw [hdisconnect, hlog]
    exact Or.inr ⟨_, fault, rfl, ⟨hcaller, rfl, hmessage.trans (disconnectNotice_eq fault)⟩, rfl⟩

end news

/-- A step that neither connects nor disconnects ends the installed session or makes no transition. -/
theorem Run.AtRest.ends (hr : r.AtRest) {st : Step} (hc : ¬ st.Connects) (hd : st ≠ .disconnect) :
    (r.log st = [] ∧
        ((r.next st).session.released = false →
          (r.next st).session.installed = r.session.installed)) ∨
      ∃ τ x cause, r.log st = [τ] ∧ τ.Ends x cause ∧ r.session.installed = some x ∧
        (r.next st).session.installed = none := by
  obtain ⟨o, halternates, hi⟩ := ((hr.deeds st).alternating (hr.valid.append [st])).turns
  have hi : (r.next st).session.released = false → (r.next st).session.installed = o := hi
  have hends : ∀ τ ∈ r.log st, ∃ x cause, τ.Ends x cause := fun τ hτ =>
    ((hr.kind hτ).resolve_left fun h => hc h.1).resolve_left fun h => hd h.1
  rcases halternates.of_ends hends with ⟨hlog, ho⟩ | ⟨τ, x, cause, hlog, hkind, hx, ho⟩
  · exact Or.inl ⟨hlog, fun hrel => (hi hrel).trans ho⟩
  · refine Or.inr ⟨τ, x, cause, hlog, hkind, hx, ?_⟩
    cases hrel : (r.next st).session.released with
    | false => exact (hi hrel).trans ho
    | true => exact (hr.next st).valid.installed_eq_none hrel

end runs

end Session

end Switchboard
