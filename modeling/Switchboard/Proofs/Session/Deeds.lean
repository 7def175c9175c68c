import Switchboard.Proofs.Session.Desks

/-!
# Steps as deeds

What a step does to the books of a session, in the order in which it does it.

**Deeds** (`Deed`). A deed says outright which state it leaves. Most turns are still as far as the
books go, and only who asks something at the desk changes what lies there; the others are a connect
that fails, a transition, the release, and work on the message hub.

**Main statements** (`Deed.turns`, `Step.deeds`). Every deed is some turns, and every step is some
deeds, whose transitions are its log.
-/

namespace Switchboard

namespace Session

open Hub (Use)

/-! ## Deeds -/

/-- The transitions that may happen in a scene, each with the watches that are to go on after it. -/
inductive Occurs (step : Step) (call : Nat) (t : Scene) : Transition → List Watch → Prop
  | join :
      step.Connects → t.session.hasHandle = true → t.session.connector.failEstablish = false →
      t.session.installed = none →
      Occurs step call t
        (t.session.establish.1.joining call (t.session.connector.lastSerial + 1)) t.ready
  | leave {x : Serial} :
      step = .disconnect → t.session.installed = some x →
      Occurs step call t (t.session.leaving call x) t.ready
  | watch {w : Watch} {rest : List Watch} {cause : Cause} :
      t.ready = w :: rest → w.fired = some cause → t.session.installed = some w.session →
      Occurs step call t (t.session.ending w.session cause) rest

/-- Work on the message hub, with the calls whose receives and publishes return. -/
inductive Handled (h : Hub LifecycleCall Nat Message) :
    Hub LifecycleCall Nat Message → List (Nat × Option Message) → List (LifecycleCall × Nat) → Prop
  | subscribe (n : Nat) : Handled h (h.subscribe n).1 [] []
  | tryReceive (id : SubscriptionId) :
      Handled h (h.tryReceive id).hub (h.tryReceive id).received (h.tryReceive id).returned
  | receive (id : SubscriptionId) (call : Nat) :
      Handled h (h.receive id call).hub (h.receive id call).received (h.receive id call).returned
  | cancel (id : SubscriptionId) :
      Handled h (h.cancel id).hub (h.cancel id).received (h.cancel id).returned
  | abandon (id : SubscriptionId) :
      Handled h (h.abandon id).hub (h.abandon id).received (h.abandon id).returned

/-- The steps that work on the message hub. -/
def Step.Mails : Step → Prop
  | subscribeMessages _ | messages .. => True
  | _ => False

/-- One deed in a step made by a call, with its transitions. -/
inductive Deed (step : Step) (call : Nat) (owner : Nat → Option CauseHandle) :
    Scene → List Transition → Scene → Prop
  /-- Nothing happens that the books would show, nor the desk unless something is asked there. -/
  | still {t t' : Scene} :
      Turn step owner t t' → t'.session.books = t.session.books →
      (step.Asks ∨ t'.session.desk = t.session.desk) → Deed step call owner t [] t'
  /-- A connect is refused for its options. -/
  | refuse {t : Scene} :
      step.Connects → Deed step call owner t [] (t.on (t.session.record Ledger.refuseOptions))
  /-- The establish of a connect fails. -/
  | fail {t : Scene} :
      step.Connects → t.session.connector.failEstablish = true →
      Deed step call owner t [] (t.on t.session.establish.1)
  /-- A connect loses to the session installed. -/
  | reject {t : Scene} :
      step.Connects → t.session.connector.failEstablish = false → t.session.installed ≠ none →
      Deed step call owner t []
        (t.on (t.session.establish.1.reject (t.session.connector.lastSerial + 1)))
  /-- The installed session changes. -/
  | turned {t : Scene} {τ : Transition} {ready : List Watch} :
      Occurs step call t τ ready →
      Deed step call owner t [τ] { t with session := τ.after, ready }
  /-- The last holder has let go. -/
  | release {t : Scene} :
      t.ready = [] → t.session.released = false → t.session.isHeld = false →
      Deed step call owner t [] (t.on t.session.release)
  /-- Somebody works on the message hub. -/
  | mail {t : Scene} {hub : Hub LifecycleCall Nat Message} {received : List (Nat × Option Message)}
      {returned : List (LifecycleCall × Nat)} :
      step.Mails → Handled t.session.messages hub received returned →
      Deed step call owner t [] (t.on (t.session.passOn hub received returned))

/-- Some deeds one after another. -/
inductive Deeds (step : Step) (call : Nat) (owner : Nat → Option CauseHandle) :
    Scene → List Transition → Scene → Prop
  | refl (t : Scene) : Deeds step call owner t [] t
  | head {t t' t'' : Scene} {log log' : List Transition} :
      Deed step call owner t log t' → Deeds step call owner t' log' t'' →
      Deeds step call owner t (log ++ log') t''

section deeds

variable {step : Step} {call : Nat} {owner : Nat → Option CauseHandle} {t t' t'' : Scene}
  {log log' : List Transition}

theorem Deeds.single (h : Deed step call owner t log t') : Deeds step call owner t log t' := by
  have hdeeds := Deeds.head h (.refl t')
  rwa [List.append_nil] at hdeeds

theorem Deeds.trans (h : Deeds step call owner t log t') (h' : Deeds step call owner t' log' t'') :
    Deeds step call owner t (log ++ log') t'' := by
  induction h with
  | refl _ => exact h'
  | head hdeed _ ih =>
    rw [List.append_assoc]
    exact .head hdeed (ih h')

theorem Deeds.still (h : Turn step owner t t') (hb : t'.session.books = t.session.books)
    (hd : t'.session.desk = t.session.desk) : Deeds step call owner t [] t' :=
  .single (.still h hb (Or.inr hd))

theorem Deeds.asking (h : Turn step owner t t') (hb : t'.session.books = t.session.books)
    (hstep : step.Asks) : Deeds step call owner t [] t' :=
  .single (.still h hb (Or.inl hstep))

/-! ## Deeds as turns -/

theorem Handled.passed {h hub : Hub LifecycleCall Nat Message} {received : List (Nat × Option Message)}
    {returned : List (LifecycleCall × Nat)} (hh : Handled h hub received returned) (hg : h.Good) :
    Passed h hub [] (returned.map (·.1)) := by
  cases hh with
  | subscribe n => exact passed_subscribe hg n
  | tryReceive id => exact passed_tryReceive hg
  | receive id call => exact passed_receive hg call
  | cancel id => exact passed_cancel hg
  | abandon id => exact passed_abandon hg

theorem passOn_turn {hub : Hub LifecycleCall Nat Message} {received : List (Nat × Option Message)}
    {returned : List (LifecycleCall × Nat)}
    (hp : Passed t.session.messages hub [] (returned.map (·.1))) :
    Turn step owner t (t.on (t.session.passOn hub received returned)) := by
  set s : Session := readMessages { t.session with messages := hub } received
  have hlife : s.life = { t.session.life with messages := hub } := life_readMessages _ _
  have htrail : s.trail = t.session.trail := trail_readMessages _ _
  refine .mail hp ?_ ((trail_resumeCalls _ s).trans htrail)
  rw [← hlife]
  exact life_resumeCalls returned s

/-! ## Transitions -/

theorem life_joining {s : Session} (call : Nat) (hok : s.connector.failEstablish = false)
    (hi : s.installed = none) :
    (s.establish.1.joining call (s.connector.lastSerial + 1)).session.life =
      s.life.establish.install := by
  obtain ⟨-, hl, -⟩ := establish_spec hok
  have hvacant : s.establish.1.isConnected = false :=
    Bool.eq_false_iff.mpr fun h => isConnected_iff.mp h ((congrArg Life.installed hl).trans hi)
  obtain ⟨s₂, active, hinstall, hl₂, -⟩ := install_spec hl hvacant
  exact (congrArg (fun p => p.1.life) hinstall).trans hl₂

theorem life_leaving (s : Session) (call : Nat) (x : Serial) :
    (s.leaving call x).session.life = s.life.leave x := by
  refine (life_teardown (s.turnCycle (some .cancelled) none) x).trans ?_
  rw [life_turnCycle]
  rfl

theorem life_ending (s : Session) (x : Serial) (cause : Cause) :
    (s.ending x cause).session.life = s.life.leave x :=
  life_turnCycle ((s.teardown x).1.record (·.teardown (s.teardown x).2)) (some cause) none

section occurs

variable {τ : Transition} {ready : List Watch}

/-- Every transition is the turn of a cycle with its cause. -/
theorem Occurs.trail (ho : Occurs step call t τ ready) :
    ∃ s₀ : Session, s₀.trail = t.session.trail ∧
      τ.session.trail = (s₀.turnCycle τ.cause (τ.caller.installs.map fun x =>
        ⟨x, [], .ofCatalog s₀.connector.catalog⟩)).trail := by
  cases ho with
  | join hstep hh hok hi =>
    obtain ⟨-, hl, ht, -⟩ := establish_spec hok
    have hvacant : t.session.establish.1.isConnected = false :=
      Bool.eq_false_iff.mpr fun h => isConnected_iff.mp h ((congrArg Life.installed hl).trans hi)
    refine ⟨t.session.establish.1, ht, ?_⟩
    rw [joining, install, if_neg (by simp [hvacant])]
    rfl
  | @leave x hstep hi =>
    exact ⟨t.session, rfl, trail_teardown (t.session.turnCycle (some .cancelled) none) x⟩
  | @watch w _ cause hready hf hi =>
    exact ⟨(t.session.teardown w.session).1.record (·.teardown (t.session.teardown w.session).2),
      rfl, rfl⟩

/-- A transition is announced while the state is in use. -/
theorem Occurs.not_released (ho : Occurs step call t τ ready) (hv : Valid owner t) :
    t.session.released = false := by
  cases ho with
  | join _ hh _ _ => exact hv.not_released_of_handle hh
  | leave _ hi => exact hv.not_released_of_installed hi
  | watch _ _ hi => exact hv.not_released_of_installed hi

/-- A transition is an entry in the books, and so is its announcement. -/
theorem Occurs.books (ho : Occurs step call t τ ready) :
    τ.after.books = τ.session.books.announce τ.caller τ.message ∧
      ((∃ x, t.session.installed = none ∧ τ.caller = .connect call x ∧
          τ.session.books = t.session.books.dial.install x) ∨
        ∃ x fault cause, t.session.installed = some x ∧ τ.caller.installs = none ∧
          τ.cause = some cause ∧ τ.session.books = t.session.books.leave x fault cause) := by
  refine ⟨books_announce _ _ _, ?_⟩
  cases ho with
  | join hstep hh hok hi =>
    obtain ⟨-, hl, -⟩ := establish_spec hok
    refine Or.inl ⟨_, hi, rfl, ?_⟩
    rw [books_joining _ call ((congrArg Life.installed hl).trans hi), books_establish hok]
  | @leave x hstep hi => exact Or.inr ⟨x, _, _, hi, rfl, rfl, books_leaving _ call x⟩
  | @watch w _ cause hready hf hi =>
    exact Or.inr ⟨w.session, _, cause, hi, rfl, rfl, books_ending _ w.session cause⟩

theorem Occurs.desk (ho : Occurs step call t τ ready) :
    τ.after.desk = t.session.desk.turn τ.caller.installs := by
  cases ho with
  | join hstep hh hok hi =>
    obtain ⟨-, hl, -⟩ := establish_spec hok
    have hvacant : t.session.establish.1.installed = none := (congrArg Life.installed hl).trans hi
    refine (desk_joining _ call hvacant).trans ?_
    rw [desk_establish]
    rfl
  | leave _ _ => exact desk_leaving _ call _
  | watch _ _ _ => exact desk_ending _ _ _

/-- Until it is announced, a transition leaves the messages alone. -/
theorem Occurs.apart (ho : Occurs step call t τ ready) :
    τ.session.messages = t.session.messages ∧ τ.session.released = t.session.released ∧
      τ.session.returned = t.session.returned := by
  obtain ⟨-, ⟨x, -, -, hturned⟩ | ⟨x, fault, cause, -, -, -, hturned⟩⟩ := ho.books
  · exact ⟨congrArg Books.messages hturned, congrArg Books.released hturned,
      congrArg Books.returned hturned⟩
  · exact ⟨congrArg Books.messages hturned, congrArg Books.released hturned,
      congrArg Books.returned hturned⟩

theorem Occurs.turns (ho : Occurs step call t τ ready) (hv : Valid owner t) :
    Turns step owner t { t with session := τ.after, ready } := by
  obtain ⟨s₀, ht₀, ht⟩ := ho.trail
  have htrail : τ.after.trail = _ := (trail_announce _ _ _).trans ht
  cases ho with
  | join hstep hh hok hi =>
    set x := t.session.connector.lastSerial + 1
    set τ := t.session.establish.1.joining call x
    have hl : τ.session.life = t.session.life.establish.install := life_joining call hok hi
    have hmessages : τ.session.messages = t.session.messages := congrArg Life.messages hl
    have hlife := life_announce (s := τ.session) (by rw [hmessages]; exact hv.accounted.good)
      τ.caller τ.message
    rw [hmessages, hl] at hlife
    obtain ⟨hub, ⟨hp, hafter⟩ | ⟨hp, hafter⟩⟩ := hlife
    · exact .single (.join hstep hh hi hp hafter ht₀ htrail)
    · exact .single (.join hstep hh hi hp hafter ht₀ htrail)
  | @leave x hstep hi =>
    have hleave : Turn step owner t (t.on (t.session.leaving call x).session) :=
      .leave hstep hi (life_leaving _ call x) ht₀ ht
    exact (Relation.ReflTransGen.single hleave).tail
      (announce_turn (hleave.valid hv).accounted.good _ _)
  | @watch w _ cause hready hf hi =>
    have hwatch : Turn step owner t
        { t with session := (t.session.ending w.session cause).session, ready } :=
      .watch hready hf hi (life_ending _ w.session cause) ht₀ ht
    exact (Relation.ReflTransGen.single hwatch).tail
      (announce_turn (hwatch.valid hv).accounted.good _ _)

end occurs

/-- **Every deed is some turns.** -/
theorem Deed.turns (h : Deed step call owner t log t') (hv : Valid owner t) :
    Turns step owner t t' := by
  cases h with
  | still hturn _ _ => exact .single hturn
  | refuse _ => exact .single (.aside rfl rfl)
  | fail _ hfail =>
    rw [establish_of_fail hfail]
    exact .single (.aside rfl rfl)
  | reject _ hok _ =>
    obtain ⟨-, hl, ht, -⟩ := establish_spec hok
    refine .single (.reject ?_ ht)
    rw [← hl]
    rfl
  | turned ho => exact ho.turns hv
  | release hr hrel hh => exact .single (.release hr hrel hh)
  | mail _ hh => exact .single (passOn_turn (hh.passed hv.accounted.good))

theorem Deeds.turns (h : Deeds step call owner t log t') (hv : Valid owner t) :
    Turns step owner t t' := by
  induction h with
  | refl _ => exact .refl
  | head hdeed _ ih => exact (hdeed.turns hv).trans (ih ((hdeed.turns hv).valid hv))

theorem Deeds.valid (h : Deeds step call owner t log t') (hv : Valid owner t) : Valid owner t' :=
  (h.turns hv).valid hv

/-- Every transition of some deeds occurs in a scene to which some of the deeds lead. -/
theorem Deeds.exists_occurs (h : Deeds step call owner t log t') {τ : Transition} (hτ : τ ∈ log) :
    ∃ log₁ t₁ ready, Deeds step call owner t log₁ t₁ ∧ Occurs step call t₁ τ ready := by
  induction h with
  | refl _ => cases hτ
  | @head t t₁ _ log _ hdeed _ ih =>
    rcases List.mem_append.mp hτ with hτ | hτ
    · cases hdeed with
      | turned ho =>
        rw [List.mem_singleton.mp hτ]
        exact ⟨[], t, _, .refl t, ho⟩
      | _ => cases hτ
    · obtain ⟨log₁, t₂, ready, hdeeds, ho⟩ := ih hτ
      exact ⟨_, t₂, ready, .head hdeed hdeeds, ho⟩

/-! ## Settling -/

/-- A watch that goes on ends its session, if that one is installed. -/
theorem endSession_deeds {w : Watch} {rest : List Watch} {cause : Cause}
    (hready : t.ready = w :: rest) (hf : w.fired = some cause) :
    Deeds step call owner t (t.session.endSessionLog w.session cause)
      { t with session := t.session.endSession w.session cause, ready := rest } := by
  by_cases hi : t.session.installed = some w.session
  · obtain ⟨hsession, hlog⟩ := endSession_of_installed hi cause
    rw [hsession, hlog]
    exact .single (.turned (.watch hready hf hi))
  · rw [endSession_of_ne hi, endSessionLog_of_ne hi]
    exact .still (.stale hready hi) rfl rfl

theorem endSessions_deeds (ready : List Watch) (hv : Valid owner t) (hready : t.ready = ready) :
    Deeds step call owner t (watchesLog ready t.session)
      { t with
        session := ready.foldl (fun s w =>
          match w.fired with
          | some cause => s.endSession w.session cause
          | none => s) t.session
        ready := [] } := by
  induction ready generalizing t with
  | nil =>
    obtain ⟨s, ready, handles, signals, taken⟩ := t
    cases hready
    exact .refl _
  | cons w rest ih =>
    have hgoing := hv.accounted.going w (hready ▸ List.mem_cons_self ..)
    rw [isReady, Bool.and_eq_true] at hgoing
    obtain ⟨cause, hf⟩ := Option.isSome_iff_exists.mp hgoing.2
    have hfirst : Deeds step call owner t _ _ := endSession_deeds hready hf
    have hrest := ih (hfirst.valid hv) rfl
    rw [List.foldl_cons, watchesLog]
    simp only [hf]
    exact hfirst.trans hrest

theorem runWatches_deeds (hv : Valid owner t) (hready : t.ready = []) :
    Deeds step call owner t t.session.runWatchesLog (t.on t.session.runWatches) := by
  have hgather : Turn step owner t _ := .gather hready
  have hrest : Deeds step call owner _ _ _ :=
    endSessions_deeds (t.session.watches.filter isReady) (hgather.valid hv) rfl
  have hscene : t.on t.session.runWatches = { t with
      session := t.session.runWatches
      ready := [] } := by
    rw [Scene.on, ← hready]
  rw [hscene]
  exact .head (.still hgather rfl (Or.inr rfl)) hrest

theorem releaseIfUnheld_deeds (hready : t.ready = []) :
    Deeds step call owner t [] (t.on t.session.releaseIfUnheld) := by
  unfold releaseIfUnheld
  split
  · exact .refl t
  · rename_i h
    rw [Bool.or_eq_true, not_or, Bool.not_eq_true, Bool.not_eq_true] at h
    exact .single (.release hready h.1 h.2)

theorem settle_deeds (hv : Valid owner t) (hready : t.ready = []) :
    Deeds step call owner t t.session.settleLog (t.on t.session.settle) := by
  have h₁ : Deeds step call owner t _ _ := releaseIfUnheld_deeds hready
  have h₂ : Deeds step call owner _ _ _ := runWatches_deeds (h₁.valid hv) hready
  have h₃ : Deeds step call owner _ _ _ := releaseIfUnheld_deeds
    (t := t.on t.session.releaseIfUnheld.runWatches) hready
  have h := (h₁.trans h₂).trans h₃
  rw [List.append_nil] at h
  exact h

theorem Deeds.settle (h : Deeds step call owner t log t') (hv : Valid owner t)
    (hready : t'.ready = []) :
    Deeds step call owner t (log ++ t'.session.settleLog) (t'.on t'.session.settle) :=
  h.trans (settle_deeds (h.valid hv) hready)

/-! ## Connecting and disconnecting -/

theorem connect_deeds (hv : Valid owner t) (hr : t.ready = []) (hstep : step.Connects)
    (hh : t.session.hasHandle = true) (options : Options) :
    Deeds step call owner t (t.session.connectLog call options)
      (t.on (t.session.connect call options).1) := by
  rcases connect_cases t.session call options with ⟨e, -, hconnect, hlog⟩ |
    ⟨-, hfail, hconnect, hlog⟩ | ⟨-, hok, hi, hconnect, hlog⟩ | ⟨-, hok, hi, hconnect, hlog⟩
  · rw [hconnect, hlog]
    exact .single (.refuse hstep)
  · rw [hconnect, hlog]
    exact .single (.fail hstep hfail)
  · rw [hconnect, hlog]
    exact .single (.reject hstep hok hi)
  · have hjoin : Deeds step call owner t _ _ := .single (.turned (.join hstep hh hok hi))
    rw [hconnect, hlog]
    exact hjoin.settle hv hr

/-- Connects at once are connects one after another. -/
theorem connectAll_deeds (hv : Valid owner t) (hr : t.ready = []) (hstep : step.Connects)
    (hh : t.session.hasHandle = true) (options : Options) (n : Nat) :
    Deeds step call owner t (t.session.connectAllLog call options n)
      (t.on (t.session.connectAll call options n).1) := by
  induction n generalizing t with
  | zero => exact .refl t
  | succ n ih =>
    have hfirst : Deeds step call owner t _ _ := connect_deeds hv hr hstep hh options
    have hheld := ((hfirst.turns hv).hasHandle (fun h => (h ▸ hstep : Step.Connects .disown))
      fun name h => (h ▸ hstep : Step.Connects (.dropClone name))).trans hh
    rw [connectAll_succ, connectAllLog]
    generalize (t.session.connect call options).1 = s at hfirst hheld ⊢
    exact hfirst.trans (ih (hfirst.valid hv) hr hheld)

theorem disconnect_deeds (hv : Valid owner t) (hr : t.ready = []) (hstep : step = .disconnect) :
    Deeds step call owner t (t.session.disconnectLog call)
      (t.on (t.session.disconnect call).1) := by
  rcases disconnect_cases t.session call with ⟨-, hdisconnect, hlog⟩ |
    ⟨a, fault, ha, -, -, hdisconnect, hlog⟩
  · rw [hdisconnect, hlog]
    exact .refl t
  · have hi : t.session.installed = some a.session := by
      rw [installed, ha]
      rfl
    have hleave : Deeds step call owner t _ _ := .single (.turned (.leave hstep hi))
    rw [hdisconnect, hlog]
    exact hleave.settle hv hr

/-! ## The connector, holders and observers -/

theorem terminate_deeds (hv : Valid owner t) (hr : t.ready = []) (cause : Cause) :
    Deeds step call owner t (t.session.terminateLog cause) { t with
      session := (t.session.terminate cause).1
      signals := t.signals ++ (t.session.connector.takeLatest.2.map (·, cause)).toList } := by
  unfold terminate terminateLog Connector.takeLatest
  cases hmax : t.session.connector.pending.max? with
  | none =>
    simp only [Option.map_none, Option.toList_none, List.append_nil]
    exact .refl t
  | some x =>
    have hmem : x ∈ t.session.life.pending := List.max?_mem hmax
    set s₁ : Session := fire { t.session with connector := { t.session.connector with
      pending := t.session.connector.pending.filter (· != x) } } x cause
    have hsignal : Turn step owner t
        { t with session := s₁, signals := t.signals ++ [(x, cause)] } :=
      .signal hmem rfl rfl
    exact (Deeds.still hsignal rfl rfl).settle hv hr

theorem clone_deeds (hh : t.session.hasHandle = true) (name : String) :
    Deeds step call owner t [] (t.on (t.session.clone name)) := by
  unfold clone
  split
  · exact .refl t
  · set s : Session := { t.session with clones := t.session.clones ++ [name] }
    have hh' : s.hasHandle = true := by simp [s, hasHandle]
    refine .still (.aside ?_ rfl) rfl rfl
    exact congrArg (fun b => { t.session.life with hasHandle := b }) (hh'.trans hh.symm)

theorem dropClone_deeds (hv : Valid owner t) (hr : t.ready = []) {name : String}
    (hstep : step = .dropClone name) :
    Deeds step call owner t (t.session.dropCloneLog name)
      (t.on (t.session.dropClone name).1) := by
  unfold dropClone dropCloneLog
  split
  · have hlet : Turn step owner t
        (t.on { t.session with clones := t.session.clones.filter (· != name) }) := by
      refine .letGo (Or.inr ⟨name, hstep⟩) rfl (fun hb => ?_) rfl
      rw [hasHandle, Bool.or_eq_true] at hb ⊢
      refine hb.imp_right fun hne => ?_
      rw [Bool.not_eq_true', List.isEmpty_eq_false_iff] at hne ⊢
      exact fun hnil => hne (by rw [hnil]; rfl)
    exact (Deeds.still hlet rfl rfl).settle hv hr
  · exact .refl t

theorem disown_deeds (hv : Valid owner t) (hr : t.ready = []) (hstep : step = .disown) :
    Deeds step call owner t t.session.disownLog (t.on t.session.disown) := by
  have hlet : Turn step owner t (t.on { t.session with owned := false }) := by
    refine .letGo (Or.inl hstep) rfl (fun hb => ?_) rfl
    rw [hasHandle, Bool.or_eq_true]
    exact Or.inr hb
  exact (Deeds.still hlet rfl rfl).settle hv hr

theorem stopObserver_deeds (hv : Valid owner t) (hr : t.ready = []) {name : String}
    (hstep : step.Stops name) :
    Deeds step call owner t (t.session.stopObserverLog name)
      (t.on (t.session.stopObserver name)) := by
  unfold stopObserver stopObserverLog
  cases hfind : t.session.observer? name with
  | none => exact .refl t
  | some o =>
    obtain ⟨-, rfl⟩ := mem_of_observer? hfind
    dsimp only
    cases hsub : o.subscription with
    | none => exact .refl t
    | some at' =>
      have hstop : Turn step owner t _ := .stop hstep hfind hsub
      exact (Deeds.still hstop (books_leaveCycle _ _ _) (desk_leaveCycle _ _ _)).settle hv hr

theorem dropObserver_deeds (hv : Valid owner t) (hr : t.ready = []) {name : String}
    (hstep : step.Stops name) :
    Deeds step call owner t (t.session.stopObserverLog name)
      (t.on (t.session.dropObserver name)) := by
  have hstop : Deeds step call owner t _ _ := stopObserver_deeds hv hr hstep
  have hforget : Turn step owner (t.on (t.session.stopObserver name)) _ :=
    .forget name hstep (stopObserver_stopped hv hr name)
  have h := hstop.trans (.still hforget rfl rfl)
  rwa [List.append_nil] at h

theorem startObserver_deeds (hv : Valid owner t) (hr : t.ready = []) {name : String}
    {stopAfter : Option Nat} (hstep : step = .startObserver name stopAfter)
    (hh : t.session.hasHandle = true) :
    Deeds step call owner t (t.session.stopObserverLog name)
      (t.on (t.session.startObserver name stopAfter)) := by
  have hstops : step.Stops name := by
    rw [hstep]
    exact rfl
  have hdrop : Deeds step call owner t _ _ := dropObserver_deeds hv hr hstops
  have hh' : (t.session.dropObserver name).hasHandle = true := by
    refine ((hdrop.turns hv).hasHandle ?_ ?_).trans hh
    · rw [hstep]
      exact Step.noConfusion
    · intro _
      rw [hstep]
      exact Step.noConfusion
  have hnew : ∀ p ∈ (t.session.dropObserver name).observers, p.name ≠ name := by
    intro p hp
    simpa using (List.mem_filter.mp hp).2
  have henroll : Turn step owner (t.on (t.session.dropObserver name)) _ :=
    .enroll (o := ⟨name, stopAfter, [], none⟩) hstep hh' hnew rfl
  have h := hdrop.trans (.still henroll rfl (desk_disconnects _ _))
  rwa [List.append_nil] at h

/-! ## Messages -/

theorem absorb_deeds (hv : Valid owner t) (hr : t.ready = []) (hstep : step.Mails) {β : Type}
    {reply : Hub.Reply LifecycleCall Nat Message β}
    (hh : Handled t.session.messages reply.hub reply.received reply.returned) :
    Deeds step call owner t (t.session.absorbLog reply) (t.on (t.session.absorb reply)) := by
  rw [absorb_eq]
  exact (Deeds.single (.mail hstep hh)).settle hv hr

theorem drainMessagesUpTo_deeds (hstep : step.Mails) (id : SubscriptionId) (fuel : Nat)
    (acc : List Message) (hv : Valid owner t) (hr : t.ready = []) :
    Deeds step call owner t (drainMessagesUpToLog id fuel t.session)
      (t.on (drainMessagesUpTo id fuel acc t.session).1) := by
  induction fuel generalizing acc t with
  | zero => exact .refl t
  | succ fuel ih =>
    have hfirst : Deeds step call owner t _ (t.on (t.session.tryReceiveMessage id).1) :=
      absorb_deeds hv hr hstep (.tryReceive id)
    rw [drainMessagesUpTo, drainMessagesUpToLog]
    rcases hresult : t.session.tryReceiveMessage id with ⟨s, m | _ | _⟩
    · rw [hresult] at hfirst
      exact hfirst.trans (ih (m :: acc) (hfirst.valid hv) hr)
    · rw [hresult] at hfirst
      rw [List.append_nil]
      exact hfirst
    · rw [hresult] at hfirst
      rw [List.append_nil]
      exact hfirst

theorem useMessages_deeds (hv : Valid owner t) (hr : t.ready = []) (hstep : step.Mails)
    (id : SubscriptionId) (use : Use) :
    Deeds step call owner t (t.session.useMessagesLog id call use)
      (t.on (t.session.useMessages id call use)) := by
  have hwaiting : ∀ (log : List Transition) (s : Session), Deeds step call owner t log (t.on s) →
      Deeds step call owner t (if t.session.messages.isWaiting id then [] else log)
        (t.on (if t.session.messages.isWaiting id then t.session else s)) := by
    intro log s hs
    split
    · exact .refl t
    · exact hs
  cases use with
  | receive => exact hwaiting _ _ (absorb_deeds hv hr hstep (.receive id call))
  | tryReceive => exact hwaiting _ _ (absorb_deeds hv hr hstep (.tryReceive id))
  | drain => exact hwaiting _ _ (drainMessagesUpTo_deeds hstep id _ [] hv hr)
  | cancel => exact absorb_deeds hv hr hstep (.cancel id)
  | abandon => exact hwaiting _ _ (absorb_deeds hv hr hstep (.abandon id))

/-! ## Facets -/

theorem setRegistry_deeds (hstep : step.Asks) (r : Registry String Player) :
    Deeds step call owner t [] (t.on (t.session.setRegistry r)) :=
  .asking (.aside rfl (trail_setRegistry r)) rfl hstep

theorem sendCommand_deeds (hstep : step.Asks) (command : String) :
    Deeds step call owner t [] (t.on (t.session.sendCommand command).1) := by
  have hbooks : (t.session.sendCommand command).1.books = t.session.books := by
    have hinstalled := installed_sendCommand (s := t.session) command
    rw [sendCommand_eq] at hinstalled ⊢
    exact congrArg (fun i => { t.session.books with installed := i }) hinstalled
  exact .asking (.aside (life_sendCommand command) (trail_sendCommand command)) hbooks hstep

theorem snapshotPlayers_deeds (hstep : step.Asks) :
    Deeds step call owner t [] (t.on t.session.snapshotPlayers.1) := by
  rw [snapshotPlayers_eq]
  exact setRegistry_deeds hstep _

theorem findPlayerById_deeds (hstep : step.Asks) (id : String) :
    Deeds step call owner t [] (t.on (t.session.findPlayerById id).1) := by
  rw [findPlayerById_eq]
  exact setRegistry_deeds hstep _

theorem findPlayerByName_deeds (hstep : step.Asks) (name : String) :
    Deeds step call owner t [] (t.on (t.session.findPlayerByName name).1) := by
  rw [findPlayerByName_eq]
  exact setRegistry_deeds hstep _

/-! ## Steps -/

theorem Deeds.plain {s : Session} (h : Deeds step call owner t log (t.on s)) :
    Deeds step call owner t log (t.after s.plain none) := by
  rw [Scene.after_plain]
  exact h

/-- A step that is not made has no transitions. -/
theorem byHolder_deeds {effect : Effect}
    (h : t.session.hasHandle = true → Deeds step call owner t log (t.after effect none)) :
    Deeds step call owner t (if t.session.hasHandle then log else [])
      (t.after (t.session.byHolder effect) none) := by
  unfold byHolder
  split
  · rename_i hh
    exact h hh
  · exact Deeds.plain (.refl t)

theorem byHolder_deeds_nil {effect : Effect}
    (h : t.session.hasHandle = true → Deeds step call owner t [] (t.after effect none)) :
    Deeds step call owner t [] (t.after (t.session.byHolder effect) none) := by
  have hdeeds := byHolder_deeds h
  rwa [ite_self] at hdeeds

theorem subscribeCauses_deeds (hh : t.session.hasHandle = true) (n : Nat) :
    Deeds step call owner t []
      (t.after ⟨(t.session.subscribeCauses n).1, some (t.session.subscribeCauses n).2, []⟩ none) := by
  have hfollow : Turn step owner t _ := .follow n hh
  rw [Scene.after, Option.toList_none, List.append_nil, List.append_nil]
  exact .still hfollow rfl (desk_disconnects _ _)

theorem causes_deeds (hv : Valid owner t) (hr : t.ready = []) {handle : CauseHandle} {use : Use}
    (hstep : step = .causes handle use) (howner : owner call = some handle) :
    Deeds step call owner t (Step.log t.session call t.handles (.causes handle use))
      (t.after (Step.act t.session call t.handles (.causes handle use)) none) := by
  rw [Step.act, Step.log]
  split
  · exact Deeds.plain (.refl t)
  · rename_i hgiven
    rw [Bool.or_eq_true, not_or, decide_eq_true_eq, not_not] at hgiven
    obtain ⟨h, hk, -⟩ := hv.orderly.known handle hgiven.1
    obtain ⟨c, hc, -⟩ := Option.map_eq_some_iff.mp hk
    have hcauses : Turn step owner t _ := .causes hstep hgiven.1 howner hc
    have hbooks := (books_readCauses (t.session.setCycle
      { c with disconnects := (use.on c.disconnects handle.id (.call call)).hub })
        (use.on c.disconnects handle.id (.call call)).received).trans (books_setCycle t.session _)
    have hdesk := (desk_readCauses (t.session.setCycle
      { c with disconnects := (use.on c.disconnects handle.id (.call call)).hub })
        (use.on c.disconnects handle.id (.call call)).received).trans (desk_setCycle hc _)
    rw [useCauses_eq hc, useCausesLog, hc]
    dsimp only [Scene.after]
    rw [Option.toList_none, Option.toList_none, List.append_nil, List.append_nil]
    exact (Deeds.still hcauses hbooks hdesk).settle hv hr

/-- **Every step is some deeds**, whose transitions are its log. -/
theorem Step.deeds (hv : Valid owner t) (hr : t.ready = [])
    (howner : ∀ handle use, step = .causes handle use → owner call = some handle) :
    Deeds step call owner t (step.log t.session call t.handles)
      (t.after (step.act t.session call t.handles) (step.signal t.session)) := by
  cases step with
  | connect options =>
    have hstep : Connects (.connect options) := trivial
    exact byHolder_deeds fun hh => .plain (connect_deeds hv hr hstep hh options)
  | race n options =>
    have hstep : Connects (.race n options) := trivial
    exact byHolder_deeds fun hh => .plain (connectAll_deeds hv hr hstep hh options n)
  | disconnect => exact byHolder_deeds fun _ => .plain (disconnect_deeds hv hr rfl)
  | terminate cause =>
    have hdeeds : Deeds (.terminate cause) call owner t _ _ := terminate_deeds hv hr cause
    rw [Scene.after]
    show Deeds _ _ _ _ _ ⟨_, _, t.handles ++ [], _, t.taken ++ []⟩
    rw [List.append_nil, List.append_nil]
    exact hdeeds
  | dropSignal =>
    have hdeeds : Deeds .dropSignal call owner t _ _ := terminate_deeds hv hr .signalLost
    rw [Scene.after]
    show Deeds _ _ _ _ _ ⟨_, _, t.handles ++ [], _, t.taken ++ []⟩
    rw [List.append_nil, List.append_nil]
    exact hdeeds
  | setRoster roster =>
    have hstep : Asks (.setRoster roster) := trivial
    exact .plain (.asking (.aside rfl rfl) rfl hstep)
  | failEstablish on => exact .plain (.still (.aside rfl rfl) rfl rfl)
  | failTeardown on => exact .plain (.still (.aside rfl rfl) rfl rfl)
  | clone name => exact byHolder_deeds_nil fun hh => .plain (clone_deeds hh name)
  | dropClone name => exact .plain (dropClone_deeds hv hr rfl)
  | disown => exact .plain (disown_deeds hv hr rfl)
  | startObserver name stopAfter =>
    exact byHolder_deeds fun hh => .plain (startObserver_deeds hv hr rfl hh)
  | stopObserver name => exact .plain (stopObserver_deeds hv hr rfl)
  | dropObserver name => exact .plain (dropObserver_deeds hv hr rfl)
  | subscribeMessages n =>
    have hstep : Mails (.subscribeMessages n) := trivial
    exact byHolder_deeds_nil fun _ => .plain (.single (.mail hstep (.subscribe n)))
  | messages id use =>
    have hstep : Mails (.messages id use) := trivial
    exact .plain (useMessages_deeds hv hr hstep id use)
  | subscribeCauses n => exact byHolder_deeds_nil fun hh => subscribeCauses_deeds hh n
  | causes handle use => exact causes_deeds hv hr rfl (howner handle use rfl)
  | sendCommand command =>
    have hstep : Asks (.sendCommand command) := trivial
    exact byHolder_deeds_nil fun _ => .plain (sendCommand_deeds hstep command)
  | snapshotPlayers =>
    have hstep : Asks .snapshotPlayers := trivial
    exact byHolder_deeds_nil fun _ => .plain (snapshotPlayers_deeds hstep)
  | findPlayerById id =>
    have hstep : Asks (.findPlayerById id) := trivial
    exact byHolder_deeds_nil fun _ => .plain (findPlayerById_deeds hstep id)
  | findPlayerByName name =>
    have hstep : Asks (.findPlayerByName name) := trivial
    exact byHolder_deeds_nil fun _ => .plain (findPlayerByName_deeds hstep name)
  | releasePlayer id =>
    have hstep : Asks (.releasePlayer id) := trivial
    exact byHolder_deeds_nil fun _ => .plain (setRegistry_deeds hstep _)
  | bind key player =>
    have hstep : Asks (.bind key player) := trivial
    exact byHolder_deeds_nil fun _ => .plain (setRegistry_deeds hstep _)
  | bindIdentity player =>
    have hstep : Asks (.bindIdentity player) := trivial
    exact byHolder_deeds_nil fun _ => .plain (setRegistry_deeds hstep _)

end deeds

theorem Run.AtRest.deeds {r : Run} (hr : r.AtRest) (st : Step) :
    Deeds st r.steps.length (handleOf (r.steps ++ [st])) r.scene (r.log st) (r.played st) :=
  Step.deeds (hr.valid.append [st]) rfl fun handle use hst => by
    rw [hst]
    exact handleOf_length r.steps handle use

end Session

end Switchboard
