import Switchboard.Proofs.Session.Requests
import Switchboard.Proofs.Session.Settling

/-!
# Steps as turns

**Main statement** (`Step.goes`). Every step of a run is a sequence of turns, after which the state
is at rest.
-/

namespace Switchboard.Session

open Hub (Use)

section operations

variable {step : Step} {owner : Nat → Option CauseHandle} {t : Scene}

/-! ## Connecting -/

theorem isConnected_iff {s : Session} : s.isConnected = true ↔ s.installed ≠ none := by
  cases hs : s.active with
  | none => simp [isConnected, installed, hs]
  | some a => simp [isConnected, installed, hs]

theorem isHeld_of_hasHandle {s : Session} (h : s.hasHandle = true) : s.isHeld = true := by
  rw [isHeld, ← hasHandle, h]
  rfl

theorem establish_cases (s : Session) :
    (∃ s₁ e, s.establish = (s₁, .error e) ∧ s₁.life = s.life ∧ s₁.trail = s.trail ∧
        s₁.isHeld = s.isHeld) ∨
      ∃ s₁, s.establish = (s₁, .ok (s.life.lastSerial + 1)) ∧ s₁.life = s.life.establish ∧
        s₁.trail = s.trail ∧ s₁.isHeld = s.isHeld := by
  set c : Connector := { s.connector with establishCalls := s.connector.establishCalls + 1 } with hc
  by_cases hf : s.connector.failEstablish = true
  · have hfail : s.connector.establish = (c, .error Connector.rejected) := if_pos hf
    exact Or.inl ⟨({ s with connector := c } : Session).record Ledger.failEstablish,
      .collaborator Connector.rejected, by rw [establish, hfail], rfl, rfl, rfl⟩
  · have hok : s.connector.establish = ({ c with
        lastSerial := s.connector.lastSerial + 1
        pending := s.connector.pending ++ [s.connector.lastSerial + 1] },
        .ok (s.connector.lastSerial + 1)) := if_neg hf
    exact Or.inr ⟨{ s with connector := { c with
      lastSerial := s.connector.lastSerial + 1
      pending := s.connector.pending ++ [s.connector.lastSerial + 1] } },
      by rw [establish, hok]; rfl, rfl, rfl, rfl⟩

/-- A connect that loses leaves the watches as they are. -/
theorem reject_goes (hv : Valid owner t) (hr : t.ready = []) {s₁ : Session}
    (hl : s₁.life = t.session.life.establish) (ht : s₁.trail = t.session.trail)
    (hh : s₁.isHeld = t.session.isHeld) :
    Goes step owner t (t.on (s₁.reject (t.session.life.lastSerial + 1))) := by
  have hlife : (s₁.reject (t.session.life.lastSerial + 1)).life =
      t.session.life.establish.tear (t.session.life.lastSerial + 1) := by
    rw [← hl]
    rfl
  refine ⟨.single (.reject hlife ht), hr, fun hq w hw => ?_, fun hk => ?_⟩
  · have hwatches := congrArg Life.watches hlife
    rw [show (t.on (s₁.reject _)).session.watches = _ from hwatches] at hw
    obtain ⟨u, hu, rfl⟩ := List.mem_map.mp hw
    rw [Watch.fire_of_ne (hv.accounted.fresh.2.2 u (List.mem_append_right _ hu))]
    exact hq u hu
  · refine hk.imp (fun h => ?_) fun h => hh.trans h
    exact (congrArg Life.released hlife).trans h

theorem install_spec {s₁ : Session} {l : Life} (hl : s₁.life = l.establish)
    (hi : s₁.isConnected = false) :
    ∃ s₂ active, s₁.install (l.lastSerial + 1) = (s₂, true) ∧ s₂.life = l.establish.install ∧
      s₂.trail = (s₁.turnCycle none (some active)).trail := by
  set active : Active := ⟨l.lastSerial + 1, [], .ofCatalog s₁.connector.catalog⟩ with hactive
  set s₂ : Session := { s₁.turnCycle none (some active) with
    watches := (s₁.turnCycle none (some active)).watches ++ [⟨l.lastSerial + 1, false, none⟩] }
  refine ⟨s₂.record Ledger.connect, active, ?_, ?_, rfl⟩
  · rw [install, if_neg (by simp [hi])]
  · have hturn := life_turnCycle s₁ none (some active)
    have hlife : (s₂.record Ledger.connect).life =
        { (s₁.turnCycle none (some active)).life with
          watches := (s₁.turnCycle none (some active)).life.watches ++
            [⟨l.lastSerial + 1, false, none⟩] } := rfl
    rw [hlife, hturn, hl]
    rfl

/-- A connect that wins installs its session and announces it. -/
theorem join_goes (hv : Valid owner t) (hr : t.ready = []) (hstep : step.Connects)
    (hh : t.session.hasHandle = true) {s₁ : Session} (hl : s₁.life = t.session.life.establish)
    (ht : s₁.trail = t.session.trail) (hi : s₁.isConnected = false) (call : Nat) :
    ∃ s₂, s₁.install (t.session.life.lastSerial + 1) = (s₂, true) ∧
      Goes step owner t (t.on (s₂.announce (.connect call (t.session.life.lastSerial + 1))
        (.status Message.connectedText)).1.settle) := by
  set who : LifecycleCall := .connect call (t.session.life.lastSerial + 1)
  obtain ⟨s₂, active, hinstall, hl₂, ht₂⟩ := install_spec hl hi
  have hnone : t.session.installed = none := by
    by_contra hne
    have hsame : s₁.installed = t.session.installed := congrArg Life.installed hl
    rw [← hsame] at hne
    rw [isConnected_iff.mpr hne] at hi
    cases hi
  have hmessages : s₂.messages = t.session.messages := congrArg Life.messages hl₂
  have htrail := (trail_announce s₂ who (.status Message.connectedText)).trans ht₂
  have hjoin : Turn step owner t (t.on (s₂.announce who (.status Message.connectedText)).1) := by
    obtain ⟨hub, hpassed⟩ := life_announce (by rw [hmessages]; exact hv.accounted.good) who
      (.status Message.connectedText)
    rw [hmessages, hl₂] at hpassed
    rcases hpassed with ⟨hp, hlife⟩ | ⟨hp, hlife⟩
    · exact .join hstep hh hnone hp hlife ht htrail
    · exact .join hstep hh hnone hp hlife ht htrail
  have hgoes : Goes step owner t _ := Goes.settle hv (.single hjoin) hr
  exact ⟨s₂, hinstall, hgoes⟩

theorem connect_goes (hv : Valid owner t) (hr : t.ready = []) (hstep : step.Connects)
    (hh : t.session.hasHandle = true) (call : Nat) (options : Options) :
    Goes step owner t (t.on (t.session.connect call options).1) := by
  unfold connect
  cases options.validate with
  | error e => exact .aside hr rfl rfl rfl
  | ok _ =>
    rcases establish_cases t.session with ⟨s₁, e, hest, hl, ht, hheld⟩ | ⟨s₁, hest, hl, ht, hheld⟩
    · rw [hest]
      exact .aside hr hl ht hheld
    · rw [hest]
      dsimp only
      cases hi : s₁.isConnected with
      | true =>
        have hinstall : s₁.install (t.session.life.lastSerial + 1) = (s₁, false) := if_pos hi
        rw [hinstall]
        exact reject_goes hv hr hl ht hheld
      | false =>
        obtain ⟨s₂, hinstall, hgoes⟩ := join_goes hv hr hstep hh hl ht hi call
        rw [hinstall]
        dsimp only
        rcases hannounce : s₂.announce (.connect call (t.session.life.lastSerial + 1))
          (.status Message.connectedText) with ⟨s₃, _ | _⟩
        all_goals
          rw [hannounce] at hgoes
          exact hgoes

/-- The first of some connects, and those that follow it. -/
theorem connectAll_succ (s : Session) (call : Nat) (options : Options) (n : Nat) :
    s.connectAll call options (n + 1) =
      (((s.connect call options).1.connectAll call options n).1,
        (s.connect call options).2 :: ((s.connect call options).1.connectAll call options n).2) := by
  rw [connectAll]

/-- Connects at once are connects one after another. -/
theorem connectAll_goes (hv : Valid owner t) (hr : t.ready = []) (hstep : step.Connects)
    (hh : t.session.hasHandle = true) (call : Nat) (options : Options) (n : Nat) :
    Goes step owner t (t.on (t.session.connectAll call options n).1) := by
  induction n generalizing t with
  | zero => exact .refl hr
  | succ n ih =>
    have hfirst : Goes step owner t _ := connect_goes hv hr hstep hh call options
    have hheld := (hfirst.turns.hasHandle (fun h => (h ▸ hstep : Step.Connects .disown))
      fun name h => (h ▸ hstep : Step.Connects (.dropClone name))).trans hh
    rw [connectAll_succ]
    generalize (t.session.connect call options).1 = s at hfirst hheld
    exact hfirst.trans (ih (hfirst.turns.valid hv) hfirst.ready hheld)

/-! ## Disconnecting -/

/-- A disconnect takes the installed session away before anything else happens. -/
theorem disconnect_leaves (hv : Valid owner t) (hr : t.ready = []) (hstep : step = .disconnect)
    (call : Nat) {x : Serial} (hi : t.session.installed = some x) :
    ∃ s, Turn step owner t (t.on s) ∧ s.life = t.session.life.leave x ∧
      s.trail = (t.session.turnCycle (some .cancelled) none).trail ∧
      Turns step owner (t.on s) (t.on (t.session.disconnect call).1) ∧
      Quiet (t.session.disconnect call).1 ∧ Kept (t.session.disconnect call).1 := by
  obtain ⟨a, ha, hx⟩ := Option.map_eq_some_iff.mp hi
  set s₀ : Session := t.session.turnCycle (some .cancelled) none with hs₀
  set fault := (s₀.teardown a.session).2
  set s₁ : Session := ((s₀.teardown a.session).1.record (·.teardown fault)).record
    (·.disconnect .cancelled) with hs₁
  have hlife : s₁.life = t.session.life.leave x := by
    refine (life_teardown s₀ a.session).trans ?_
    rw [hs₀, life_turnCycle, hx]
    rfl
  have hleave : Turn step owner t (t.on s₁) :=
    .leave hstep hi hlife rfl (trail_teardown s₀ a.session)
  have hv₁ := hleave.valid hv
  have hannounce : Turn step owner (t.on s₁)
      (t.on (s₁.announce (.disconnect call fault) (disconnectNotice fault)).1) :=
    announce_turn hv₁.accounted.good _ _
  obtain ⟨hturns, hrest⟩ := settle_turns step (hannounce.valid hv₁) hr
  have hdisconnect : (t.session.disconnect call).1 =
      (s₁.announce (.disconnect call fault) (disconnectNotice fault)).1.settle := by
    rw [disconnect, ha]
    dsimp only
    split
    all_goals
      rename_i heq
      exact congrArg (fun r => r.1.settle) heq.symm
  rw [hdisconnect]
  exact ⟨s₁, hleave, hlife, rfl, (Relation.ReflTransGen.single hannounce).trans hturns, hrest⟩

theorem disconnect_goes (hv : Valid owner t) (hr : t.ready = []) (hstep : step = .disconnect)
    (call : Nat) : Goes step owner t (t.on (t.session.disconnect call).1) := by
  cases hi : t.session.installed with
  | none =>
    have hnone : t.session.active = none := Option.map_eq_none_iff.mp hi
    rw [disconnect, hnone]
    exact .refl hr
  | some x =>
    obtain ⟨s, hleave, -, -, hturns, hquiet, hkept⟩ := disconnect_leaves hv hr hstep call hi
    exact ⟨hturns.head hleave, hr, fun _ => hquiet, fun _ => hkept⟩

/-! ## The connector's side -/

theorem terminate_goes (hv : Valid owner t) (hr : t.ready = []) (cause : Cause) :
    Goes step owner t { t with
      session := (t.session.terminate cause).1
      signals := t.signals ++ (t.session.connector.takeLatest.2.map (·, cause)).toList } := by
  unfold terminate Connector.takeLatest
  cases hmax : t.session.connector.pending.max? with
  | none =>
    simp only [Option.map_none, Option.toList_none, List.append_nil]
    exact .refl hr
  | some x =>
    have hmem : x ∈ t.session.life.pending := List.max?_mem hmax
    set s₁ : Session := fire { t.session with connector := { t.session.connector with
      pending := t.session.connector.pending.filter (· != x) } } x cause
    have hsignal : Turn step owner t
        { t with session := s₁, signals := t.signals ++ [(x, cause)] } :=
      .signal hmem rfl rfl
    exact Goes.settle hv (.single hsignal) hr

/-! ## Holders -/

theorem clone_goes (hr : t.ready = []) (hh : t.session.hasHandle = true) (name : String) :
    Goes step owner t (t.on (t.session.clone name)) := by
  unfold clone
  split
  · exact .refl hr
  · set s : Session := { t.session with clones := t.session.clones ++ [name] }
    have hh' : s.hasHandle = true := by simp [s, hasHandle]
    refine .aside hr ?_ rfl ((isHeld_of_hasHandle hh').trans (isHeld_of_hasHandle hh).symm)
    exact congrArg (fun b => { t.session.life with hasHandle := b }) (hh'.trans hh.symm)

theorem letGo_goes (hv : Valid owner t) (hr : t.ready = [])
    (hstep : step = .disown ∨ ∃ name, step = .dropClone name) {s : Session} {b : Bool}
    (hl : s.life = { t.session.life with hasHandle := b })
    (hb : b = true → t.session.hasHandle = true) (ht : s.trail = t.session.trail) :
    Goes step owner t (t.on s.settle) :=
  Goes.settle hv (.single (.letGo hstep hl hb ht)) hr

theorem dropClone_goes (hv : Valid owner t) (hr : t.ready = []) {name : String}
    (hstep : step = .dropClone name) : Goes step owner t (t.on (t.session.dropClone name).1) := by
  unfold dropClone
  split
  · refine letGo_goes hv hr (Or.inr ⟨name, hstep⟩) rfl (fun hb => ?_) rfl
    rw [hasHandle, Bool.or_eq_true] at hb ⊢
    refine hb.imp_right fun hne => ?_
    rw [Bool.not_eq_true', List.isEmpty_eq_false_iff] at hne ⊢
    exact fun hnil => hne (by rw [hnil]; rfl)
  · exact .refl hr

theorem disown_goes (hv : Valid owner t) (hr : t.ready = []) (hstep : step = .disown) :
    Goes step owner t (t.on t.session.disown) := by
  refine letGo_goes hv hr (Or.inl hstep) rfl (fun hb => ?_) rfl
  rw [hasHandle, Bool.or_eq_true]
  exact Or.inr hb

/-! ## Observers -/

theorem stopObserver_goes (hv : Valid owner t) (hr : t.ready = []) {name : String}
    (hstep : step.Stops name) :
    Goes step owner t (t.on (t.session.stopObserver name)) := by
  unfold stopObserver
  cases hfind : t.session.observer? name with
  | none => exact .refl hr
  | some o =>
    obtain ⟨-, rfl⟩ := mem_of_observer? hfind
    dsimp only
    cases hsub : o.subscription with
    | none => exact .refl hr
    | some at' =>
      have hstop : Turn step owner t _ := .stop hstep hfind hsub
      exact Goes.settle hv (.single hstop) hr

/-- An observer that was stopped waits for nothing. -/
theorem stopObserver_stopped (hv : Valid owner t) (hr : t.ready = []) (name : String) :
    Stopped name (t.session.stopObserver name).trail := by
  unfold stopObserver
  cases hfind : t.session.observer? name with
  | none => exact fun o hmem hn => absurd hn (observer?_eq_none hfind o hmem)
  | some o =>
    obtain ⟨hmem, rfl⟩ := mem_of_observer? hfind
    dsimp only
    cases hsub : o.subscription with
    | none =>
      intro o' hmem' hn
      rw [hv.orderly.eq_of_name hmem' hmem hn]
      exact hsub
    | some at' =>
      have hstop : Turn (.dropObserver o.name) owner t _ := .stop rfl hfind hsub
      have hv' := hstop.valid hv
      refine Turns.stopped (settle_turns (.dropObserver o.name) hv' hr).1 hv'
        (fun _ h => nomatch h) fun p hp hn => ?_
      obtain ⟨q, -, rfl⟩ := List.mem_map.mp hp
      by_cases hname : q.name = o.name
      · rw [if_pos hname]
      · rw [if_neg hname] at hn
        exact absurd hn hname

/-- An observer is stopped and then forgotten. -/
theorem dropObserver_goes (hv : Valid owner t) (hr : t.ready = []) {name : String}
    (hstep : step.Stops name) :
    Goes step owner t (t.on (t.session.dropObserver name)) := by
  have hstop : Goes step owner t _ := stopObserver_goes hv hr hstep
  have hstopped := stopObserver_stopped hv hr name
  refine hstop.trans ⟨.single (.forget name hstep hstopped), hr, fun hq => hq, fun hk => ?_⟩
  refine hk.imp_right fun hheld => ?_
  rw [isHeld, Bool.or_eq_true, Bool.or_eq_true] at hheld ⊢
  refine hheld.imp_left fun h => h.imp_right fun hany => ?_
  obtain ⟨o, ho, hrun⟩ := List.any_eq_true.mp hany
  -- An observer that goes away has stopped, so it does not hold the state.
  have hne : o.name ≠ name := by
    intro hn
    rw [Observer.isRunning, hstopped o ho hn] at hrun
    cases hrun
  exact List.any_eq_true.mpr ⟨o, List.mem_filter.mpr ⟨ho, by simpa using hne⟩, hrun⟩

theorem startObserver_goes (hv : Valid owner t) (hr : t.ready = []) {name : String}
    {stopAfter : Option Nat} (hstep : step = .startObserver name stopAfter)
    (hh : t.session.hasHandle = true) :
    Goes step owner t (t.on (t.session.startObserver name stopAfter)) := by
  have hstops : step.Stops name := by
    rw [hstep]
    exact rfl
  have hdrop : Goes step owner t _ := dropObserver_goes hv hr hstops
  have hh' : (t.session.dropObserver name).hasHandle = true := by
    refine (hdrop.turns.hasHandle ?_ ?_).trans hh
    · rw [hstep]
      exact Step.noConfusion
    · intro _
      rw [hstep]
      exact Step.noConfusion
  have hnew : ∀ p ∈ (t.session.dropObserver name).observers, p.name ≠ name := by
    intro p hp
    simpa using (List.mem_filter.mp hp).2
  exact ⟨hdrop.turns.tail (.enroll (o := ⟨name, stopAfter, [], none⟩) hstep hh' hnew rfl), hr,
    hdrop.quiet, fun _ => Or.inr (isHeld_of_hasHandle hh')⟩

/-! ## Messages -/

theorem absorb_goes (hv : Valid owner t) (hr : t.ready = []) {β : Type}
    {reply : Hub.Reply LifecycleCall Nat Message β}
    (hp : Passed t.session.messages reply.hub [] (reply.returned.map (·.1))) :
    Goes step owner t (t.on (t.session.absorb reply)) := by
  set s : Session := readMessages { t.session with messages := reply.hub } reply.received with hs
  have hlife : s.life = { t.session.life with messages := reply.hub } := life_readMessages _ _
  have htrail : s.trail = t.session.trail := trail_readMessages _ _
  have hmail : Turn step owner t (t.on (reply.returned.foldl (fun s r => s.resumeCall r.1) s)) := by
    refine .mail hp ?_ ((trail_resumeCalls _ s).trans htrail)
    rw [life_resumeCalls, hlife]
  exact Goes.settle hv (.single hmail) hr

theorem subscribeMessages_goes (hv : Valid owner t) (hr : t.ready = [])
    (hh : t.session.hasHandle = true) (n : Nat) :
    Goes step owner t (t.on (t.session.subscribeMessages n).1) :=
  ⟨.single (.mail (passed_subscribe hv.accounted.good n) rfl rfl), hr, fun hq => hq,
    fun _ => Or.inr (isHeld_of_hasHandle hh)⟩

theorem tryReceiveMessage_goes (hv : Valid owner t) (hr : t.ready = []) (id : SubscriptionId) :
    Goes step owner t (t.on (t.session.tryReceiveMessage id).1) :=
  absorb_goes hv hr (passed_tryReceive hv.accounted.good)

theorem drainMessagesUpTo_goes (id : SubscriptionId) (fuel : Nat) (acc : List Message)
    (hv : Valid owner t) (hr : t.ready = []) :
    Goes step owner t (t.on (drainMessagesUpTo id fuel acc t.session).1) := by
  induction fuel generalizing acc t with
  | zero => exact .refl hr
  | succ fuel ih =>
    have hfirst : Goes step owner t _ := tryReceiveMessage_goes hv hr id
    rw [drainMessagesUpTo]
    rcases hresult : t.session.tryReceiveMessage id with ⟨s, m | _ | _⟩
    · rw [hresult] at hfirst
      exact hfirst.trans (ih (m :: acc) (hfirst.turns.valid hv) hr)
    · rw [hresult] at hfirst
      exact hfirst
    · rw [hresult] at hfirst
      exact hfirst

theorem useMessages_goes (hv : Valid owner t) (hr : t.ready = []) (id : SubscriptionId) (call : Nat)
    (use : Use) : Goes step owner t (t.on (t.session.useMessages id call use)) := by
  have hg := hv.accounted.good
  have hwaiting : ∀ s : Session, Goes step owner t (t.on s) →
      Goes step owner t (t.on (if t.session.messages.isWaiting id then t.session else s)) := by
    intro s hs
    split
    · exact .refl hr
    · exact hs
  cases use with
  | receive => exact hwaiting _ (absorb_goes hv hr (passed_receive hg call))
  | tryReceive => exact hwaiting _ (tryReceiveMessage_goes hv hr id)
  | drain => exact hwaiting _ (drainMessagesUpTo_goes id _ [] hv hr)
  | cancel => exact absorb_goes hv hr (passed_cancel hg)
  | abandon => exact hwaiting _ (absorb_goes hv hr (passed_abandon hg))

/-! ## Causes -/

theorem useCauses_eq {s : Session} {handle : CauseHandle} {c : Cycle}
    (hc : s.cycle? handle.cycle = some c) (call : Nat) (use : Use) :
    s.useCauses handle call use =
      (((s.setCycle
          { c with disconnects := (use.on c.disconnects handle.id (.call call)).hub }).readCauses
            (use.on c.disconnects handle.id (.call call)).received).settle,
        (use.on c.disconnects handle.id (.call call)).result) := by
  cases use with
  | receive =>
    rw [useCauses, receiveCause, onCauses, hc]
    rfl
  | tryReceive =>
    rw [useCauses, tryReceiveCause, onCauses, hc]
    rfl
  | drain =>
    rw [useCauses, drainCauses, onCauses, hc]
    rfl
  | cancel =>
    rw [useCauses, cancelCauses, onCauses, hc]
    rfl
  | abandon =>
    rw [useCauses, abandonCauses, onCauses, hc]
    rfl

/-- The registry of a cycle is on neither face. -/
theorem setRegistry_goes (hr : t.ready = []) (r : Registry String Player) :
    Goes step owner t (t.on (t.session.setRegistry r)) :=
  .aside hr rfl (trail_setRegistry r) rfl

/-! ## Facets -/

theorem sendCommand_goes (hr : t.ready = []) (command : String) :
    Goes step owner t (t.on (t.session.sendCommand command).1) := by
  have hheld : (t.session.sendCommand command).1.isHeld = t.session.isHeld := by
    rw [sendCommand_eq]
    rfl
  exact .aside hr (life_sendCommand command) (trail_sendCommand command) hheld

theorem snapshotPlayers_goes (hr : t.ready = []) :
    Goes step owner t (t.on t.session.snapshotPlayers.1) := by
  rw [snapshotPlayers_eq]
  exact setRegistry_goes hr _

theorem findPlayerById_goes (hr : t.ready = []) (id : String) :
    Goes step owner t (t.on (t.session.findPlayerById id).1) := by
  rw [findPlayerById_eq]
  exact setRegistry_goes hr _

theorem findPlayerByName_goes (hr : t.ready = []) (name : String) :
    Goes step owner t (t.on (t.session.findPlayerByName name).1) := by
  rw [findPlayerByName_eq]
  exact setRegistry_goes hr _

/-! ## Steps -/

/-- The scene after a step, with the signal that it ended. -/
def Scene.after (t : Scene) (effect : Effect) (signal : Option (Serial × Cause)) : Scene where
  session := effect.session
  ready := t.ready
  handles := t.handles ++ effect.handle.toList
  signals := t.signals ++ signal.toList
  taken := t.taken ++ effect.values

theorem Scene.after_plain (t : Scene) (s : Session) : t.after s.plain none = t.on s := by
  rw [Scene.after, plain, Option.toList_none, Option.toList_none, List.append_nil, List.append_nil,
    List.append_nil, Scene.on]

theorem Goes.plain {s : Session} (h : Goes step owner t (t.on s)) :
    Goes step owner t (t.after s.plain none) := by
  rw [Scene.after_plain]
  exact h

/-- A step that is not made changes nothing. -/
theorem byHolder_goes (hr : t.ready = []) {effect : Effect}
    (h : t.session.hasHandle = true → Goes step owner t (t.after effect none)) :
    Goes step owner t (t.after (t.session.byHolder effect) none) := by
  unfold byHolder
  split
  · rename_i hh
    exact h hh
  · exact Goes.plain (.refl hr)

theorem subscribeCauses_goes (hr : t.ready = []) (hh : t.session.hasHandle = true) (n : Nat) :
    Goes step owner t
      (t.after ⟨(t.session.subscribeCauses n).1, some (t.session.subscribeCauses n).2, []⟩ none) := by
  refine ⟨?_, hr, fun hq => hq, fun _ => Or.inr (isHeld_of_hasHandle hh)⟩
  have hfollow : Turn step owner t _ := .follow n hh
  refine .single ?_
  rw [Scene.after, Option.toList_none, List.append_nil, List.append_nil]
  exact hfollow

theorem causes_goes (hv : Valid owner t) (hr : t.ready = []) {handle : CauseHandle} {use : Use}
    {call : Nat} (hstep : step = .causes handle use) (howner : owner call = some handle) :
    Goes step owner t (t.after (Step.act t.session call t.handles (.causes handle use)) none) := by
  rw [Step.act]
  split
  · exact Goes.plain (.refl hr)
  · rename_i hgiven
    rw [Bool.or_eq_true, not_or, decide_eq_true_eq, not_not] at hgiven
    obtain ⟨h, hk, -⟩ := hv.orderly.known handle hgiven.1
    obtain ⟨c, hc, -⟩ := Option.map_eq_some_iff.mp hk
    have hcauses : Turn step owner t _ := .causes hstep hgiven.1 howner hc
    rw [useCauses_eq hc]
    dsimp only [Scene.after]
    rw [Option.toList_none, Option.toList_none, List.append_nil, List.append_nil]
    exact Goes.settle hv (.single hcauses) hr

/-- **Every step is some turns, after which the state is at rest.** -/
theorem Step.goes (hv : Valid owner t) (hr : t.ready = []) {call : Nat}
    (howner : ∀ handle use, step = .causes handle use → owner call = some handle) :
    Goes step owner t
      (t.after (step.act t.session call t.handles) (step.signal t.session)) := by
  cases step with
  | connect options =>
    have hstep : Connects (.connect options) := trivial
    exact byHolder_goes hr fun hh => .plain (connect_goes hv hr hstep hh call options)
  | race n options =>
    have hstep : Connects (.race n options) := trivial
    exact byHolder_goes hr fun hh => .plain (connectAll_goes hv hr hstep hh call options n)
  | disconnect => exact byHolder_goes hr fun _ => .plain (disconnect_goes hv hr rfl call)
  | terminate cause =>
    have hgoes : Goes (.terminate cause) owner t _ := terminate_goes hv hr cause
    rw [Scene.after]
    show Goes _ _ _ ⟨_, _, t.handles ++ [], _, t.taken ++ []⟩
    rw [List.append_nil, List.append_nil]
    exact hgoes
  | dropSignal =>
    have hgoes : Goes .dropSignal owner t _ := terminate_goes hv hr .signalLost
    rw [Scene.after]
    show Goes _ _ _ ⟨_, _, t.handles ++ [], _, t.taken ++ []⟩
    rw [List.append_nil, List.append_nil]
    exact hgoes
  | setRoster roster => exact .plain (.aside hr rfl rfl rfl)
  | failEstablish on => exact .plain (.aside hr rfl rfl rfl)
  | failTeardown on => exact .plain (.aside hr rfl rfl rfl)
  | clone name => exact byHolder_goes hr fun hh => .plain (clone_goes hr hh name)
  | dropClone name => exact .plain (dropClone_goes hv hr rfl)
  | disown => exact .plain (disown_goes hv hr rfl)
  | startObserver name stopAfter =>
    exact byHolder_goes hr fun hh => .plain (startObserver_goes hv hr rfl hh)
  | stopObserver name => exact .plain (stopObserver_goes hv hr rfl)
  | dropObserver name => exact .plain (dropObserver_goes hv hr rfl)
  | subscribeMessages n =>
    exact byHolder_goes hr fun hh => .plain (subscribeMessages_goes hv hr hh n)
  | messages id use => exact .plain (useMessages_goes hv hr id call use)
  | subscribeCauses n => exact byHolder_goes hr fun hh => subscribeCauses_goes hr hh n
  | causes handle use => exact causes_goes hv hr rfl (howner handle use rfl)
  | sendCommand command => exact byHolder_goes hr fun _ => .plain (sendCommand_goes hr command)
  | snapshotPlayers => exact byHolder_goes hr fun _ => .plain (snapshotPlayers_goes hr)
  | findPlayerById id => exact byHolder_goes hr fun _ => .plain (findPlayerById_goes hr id)
  | findPlayerByName name => exact byHolder_goes hr fun _ => .plain (findPlayerByName_goes hr name)
  | releasePlayer id => exact byHolder_goes hr fun _ => .plain (setRegistry_goes hr _)
  | bind key player => exact byHolder_goes hr fun _ => .plain (setRegistry_goes hr _)
  | bindIdentity player => exact byHolder_goes hr fun _ => .plain (setRegistry_goes hr _)

end operations

end Switchboard.Session
