import Switchboard.Proofs.Session.Deeds

/-!
# Asking at the desk

What lies at the desk of a session after a step.

**Asking** (`Run.write`, `Run.send`). A step that asks leaves a registry and some commands at the
desk, if a holder makes it (`Run.stays_of_asks`).

**Main statements** (`Run.AtRest.stays`, `Run.AtRest.turns`). A step with transitions turns the
desk once for each of them. A step without leaves the registry as it writes it, and the installed
session with the commands that it sends, unless the state is released.
-/

namespace Switchboard.Session

/-! ## What steps write -/

/-- The commands that a step sends. -/
def Step.commands : Step → List String
  | sendCommand command => [command]
  | _ => []

/-- The registry after a step that follows a run, if no cycle ends. Only a holder may ask. -/
def Run.write (r : Run) (st : Step) (registry : Registry String Player) : Registry String Player :=
  if r.session.hasHandle then
    st.written r.session.connector.roster r.session.isConnected registry
  else registry

/-- The commands sent in a step that follows a run. -/
def Run.send (r : Run) (st : Step) : List String := if r.session.hasHandle then st.commands else []

/-- What is left at the desk by a step in which no cycle ends. -/
structure Stays (r : Run) (st : Step) : Prop where
  number : (r.next st).session.desk.number = r.session.desk.number
  others : ∀ k, k ≠ r.session.desk.number →
    (r.next st).session.desk.registries k = r.session.desk.registries k
  registry : (r.next st).session.desk.registries r.session.desk.number =
    some (r.write st r.session.registry)
  active : (r.next st).session.active = none ∨
    (r.next st).session.active = r.session.active.map (sending · (r.send st))
  catalog : (r.next st).session.desk.catalog = r.session.desk.catalog

section asking

variable {s : Session}

theorem desk_setRegistry (registry : Registry String Player) :
    (s.setRegistry registry).desk = { s.desk with
      registries := fun k => if k = s.desk.number then some registry else s.desk.registries k } := by
  refine Desk.ext rfl (funext fun k => ?_) rfl rfl rfl
  show Option.map Cycle.registry (if s.cycle.number = k then _ else _) =
    if k = s.cycle.number then _ else (s.cycle? k).map (·.registry)
  by_cases hk : s.cycle.number = k
  · rw [if_pos hk, if_pos hk.symm]
    rfl
  · rw [if_neg hk, if_neg (Ne.symm hk), cycle?, if_neg hk]
    rfl

/-! ## Steps that ask -/

theorem Run.write_of_written {r : Run} {st : Step} {registry : Registry String Player}
    (h : ∀ roster connected, st.written roster connected registry = registry) :
    r.write st registry = registry := by
  rw [write, h, ite_self]

theorem map_sending_nil (active : Option Active) : active.map (sending · []) = active := by
  have hsame : (sending · []) = id := by
    funext a
    rw [sending, List.append_nil]
    rfl
  rw [hsame, Option.map_id_fun, id_eq]

theorem Run.map_sending_of_commands {r : Run} {st : Step} (h : st.commands = []) :
    r.session.active.map (sending · (r.send st)) = r.session.active := by
  rw [send, h, ite_self, map_sending_nil]

theorem desk_sendCommand (command : String) : (s.sendCommand command).1.desk =
    { s.desk with active := s.active.map (sending · [command]) } := by
  rw [sendCommand_eq]
  rfl

theorem Stays.of_desk {r : Run} {st : Step} (hsend : st.commands = [])
    {registry : Registry String Player}
    (hwrite : r.write st r.session.registry = registry)
    (hdesk : (r.next st).session.desk = (r.session.setRegistry registry).desk) : Stays r st := by
  have hactive := congrArg Desk.active hdesk
  rw [desk_setRegistry] at hdesk
  refine ⟨by rw [hdesk], fun k hk => ?_, ?_, Or.inr ?_, by rw [hdesk]⟩
  · rw [hdesk]
    exact if_neg hk
  · rw [hdesk, hwrite]
    exact if_pos rfl
  · rw [Run.map_sending_of_commands hsend]
    exact hactive

theorem Stays.of_setRegistry {r : Run} {st : Step} (hsend : st.commands = [])
    (hact : st.act r.session r.steps.length r.handles = r.session.byHolder
      (r.session.setRegistry (st.written r.session.connector.roster r.session.isConnected
        r.session.registry)).plain) : Stays r st := by
  refine .of_desk hsend rfl ?_
  have hdesk : (r.next st).session.desk = _ := congrArg (fun e => e.session.desk) hact
  rw [hdesk, byHolder, Run.write]
  split <;> rfl

/-- **What a step that asks leaves at the desk.** -/
theorem Run.stays_of_asks (r : Run) {st : Step} (hstep : st.Asks) : Stays r st := by
  cases st with
  | setRoster roster =>
    have hwrite : r.write (.setRoster roster) r.session.registry = r.session.registry :=
      write_of_written fun _ _ => rfl
    refine ⟨rfl, fun _ _ => rfl, ?_, Or.inr (map_sending_of_commands rfl).symm, rfl⟩
    rw [hwrite]
    exact desk_registries _
  | sendCommand command =>
    have hwrite : r.write (.sendCommand command) r.session.registry = r.session.registry :=
      write_of_written fun _ _ => rfl
    have hdesk : (r.next (.sendCommand command)).session.desk = { r.session.desk with
        active := r.session.active.map (sending · (r.send (.sendCommand command))) } := by
      show (r.session.byHolder (r.session.sendCommand command).1.plain).session.desk = _
      unfold byHolder send
      split
      · exact desk_sendCommand command
      · rw [map_sending_nil]
        rfl
    have hactive := congrArg Desk.active hdesk
    refine ⟨by rw [hdesk], fun k _ => by rw [hdesk], ?_, Or.inr hactive, by rw [hdesk]⟩
    rw [hdesk, hwrite]
    exact desk_registries _
  | snapshotPlayers => exact .of_setRegistry rfl (by rw [Step.act, snapshotPlayers_eq])
  | findPlayerById id => exact .of_setRegistry rfl (by rw [Step.act, findPlayerById_eq])
  | findPlayerByName name => exact .of_setRegistry rfl (by rw [Step.act, findPlayerByName_eq])
  | releasePlayer id => exact .of_setRegistry rfl rfl
  | bind key player => exact .of_setRegistry rfl rfl
  | bindIdentity player => exact .of_setRegistry rfl rfl
  | _ => exact hstep.elim

end asking

/-! ## Steps with transitions -/

/-- The desk after some transitions. -/
def Desk.after (d : Desk) (log : List Transition) : Desk :=
  log.foldl (fun d τ => d.turn τ.caller.installs) d

namespace Desk

variable {d : Desk} {log : List Transition}

theorem after_append (log' : List Transition) : d.after (log ++ log') = (d.after log).after log' :=
  List.foldl_append ..

theorem number_after : (d.after log).number = d.number + log.length := by
  induction log generalizing d with
  | nil => rfl
  | cons τ log ih =>
    refine (ih (d := d.turn τ.caller.installs)).trans ?_
    show d.number + 1 + log.length = d.number + (log.length + 1)
    omega

theorem catalog_after : (d.after log).catalog = d.catalog := by
  induction log generalizing d with
  | nil => rfl
  | cons τ log ih => exact ih (d := d.turn τ.caller.installs)

theorem registries_after {k : Nat} (hk : k ≤ d.number) :
    (d.after log).registries k = d.registries k := by
  induction log generalizing d with
  | nil => rfl
  | cons τ log ih =>
    refine (ih (d := d.turn τ.caller.installs) (Nat.le_succ_of_le hk)).trans ?_
    exact if_neg (Nat.ne_of_lt (Nat.lt_succ_of_le hk))

/-- The last transition decides on the session installed, and begins with an empty registry. -/
theorem after_snoc (d : Desk) (log : List Transition) (τ : Transition) :
    (d.after (log ++ [τ])).registries (d.after (log ++ [τ])).number = some .empty ∧
      (d.after (log ++ [τ])).active =
        τ.caller.installs.map fun x => ⟨x, [], .ofCatalog d.catalog⟩ := by
  have hturn : d.after (log ++ [τ]) = (d.after log).turn τ.caller.installs := after_append [τ]
  have hcatalog : (d.after log).catalog = d.catalog := catalog_after
  rw [hturn, ← hcatalog]
  exact ⟨if_pos rfl, rfl⟩

end Desk

section deeds

variable {step : Step} {call : Nat} {owner : Nat → Option CauseHandle} {t t' : Scene}
  {log : List Transition}

/-- A deed turns the desk with its transitions, or clears it. -/
theorem Deed.desk (h : Deed step call owner t log t') (hstep : ¬ step.Asks) :
    t'.session.desk = t.session.desk.after log ∨
      t'.session.desk = (t.session.desk.after log).vacate := by
  cases h with
  | still _ _ hdesk => exact Or.inl (hdesk.resolve_left hstep)
  | refuse _ => exact Or.inl rfl
  | fail _ _ => exact Or.inl (desk_establish _)
  | reject _ _ _ => exact Or.inl ((desk_reject _ _).trans (desk_establish _))
  | turned ho => exact Or.inl ho.desk
  | release _ _ _ => exact Or.inr (desk_release _)
  | mail _ _ => exact Or.inl (desk_passOn _ _ _ _)

theorem Desk.after_vacate (d : Desk) (log : List Transition) :
    d.vacate.after log = d.after log ∨ d.vacate.after log = (d.after log).vacate := by
  cases log with
  | nil => exact Or.inr rfl
  | cons τ log => exact Or.inl rfl

/-- **A step in which nothing is asked turns the desk with its transitions, or clears it.** -/
theorem Deeds.desk (h : Deeds step call owner t log t') (hstep : ¬ step.Asks) :
    t'.session.desk = t.session.desk.after log ∨
      t'.session.desk = (t.session.desk.after log).vacate := by
  induction h with
  | refl _ => exact Or.inl rfl
  | @head t t₁ t₂ log log' hdeed _ ih =>
    rw [Desk.after_append]
    rcases hdeed.desk hstep with hfirst | hfirst
    · rwa [hfirst] at ih
    · rw [hfirst] at ih
      rcases (t.session.desk.after log).after_vacate log' with hrest | hrest
      · rwa [hrest] at ih
      · rw [hrest] at ih
        exact Or.inr (ih.elim id id)

end deeds

section runs

variable {r : Run} {st : Step}

theorem Run.log_of_asks (r : Run) (hstep : st.Asks) : r.log st = [] := by
  cases st <;> first | rfl | exact hstep.elim

theorem Step.written_of_not_asks (hstep : ¬ st.Asks) (roster : Roster) (connected : Bool)
    (registry : Registry String Player) :
    st.written roster connected registry = registry ∧ st.commands = [] := by
  cases st <;> first | exact ⟨rfl, rfl⟩ | exact absurd trivial hstep

/-- **What a step without transitions leaves at the desk.** -/
theorem Run.AtRest.stays (hr : r.AtRest) (hlog : r.log st = []) : Stays r st := by
  by_cases hstep : st.Asks
  · exact r.stays_of_asks hstep
  · have hwrite : r.write st r.session.registry = r.session.registry :=
      write_of_written fun roster connected =>
        (Step.written_of_not_asks hstep roster connected _).1
    have hsend : st.commands = [] :=
      (Step.written_of_not_asks hstep r.session.connector.roster true .empty).2
    have hdesk : (r.next st).session.desk = _ ∨ (r.next st).session.desk = _ :=
      (hr.deeds st).desk hstep
    rw [hlog] at hdesk
    rcases hdesk with hdesk | hdesk
    · exact .of_desk hsend hwrite hdesk
    · refine ⟨by rw [hdesk]; rfl, fun k _ => by rw [hdesk]; rfl, ?_,
        Or.inl (congrArg Desk.active hdesk), by rw [hdesk]; rfl⟩
      rw [hdesk, hwrite]
      exact desk_registries r.session

theorem Stays.registry_next (h : Stays r st) :
    (r.next st).session.registry = r.write st r.session.registry := by
  have hsome := desk_registries (r.next st).session
  rw [h.number, h.registry, Option.some.injEq] at hsome
  exact hsome.symm

/-- **A step with transitions turns the desk with them**, and may clear it then. -/
theorem Run.AtRest.turns (hr : r.AtRest) (hlog : r.log st ≠ []) :
    ∃ active, (r.next st).session.desk = { r.session.desk.after (r.log st) with active } ∧
      (active = none ∨ active = (r.session.desk.after (r.log st)).active) := by
  have hdesk : (r.next st).session.desk = _ ∨ (r.next st).session.desk = _ :=
    (hr.deeds st).desk fun h => hlog (r.log_of_asks h)
  rcases hdesk with hdesk | hdesk
  · exact ⟨_, hdesk, Or.inr rfl⟩
  · exact ⟨none, hdesk, Or.inl rfl⟩

end runs

end Switchboard.Session
