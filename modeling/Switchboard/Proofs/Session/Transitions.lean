import Switchboard.Proofs.Session.Fates
import Switchboard.Proofs.Session.Outcomes
import Switchboard.Proofs.Session.Publishes

/-!
# Transitions are complete when they are announced

The message of a transition is the last thing about it, and the only one that may be parked.

**Completeness** (`Transition.Complete`). On the state in which the message is announced everything
shows the transition: what is installed, what the guarded calls answer, the registry and the hub of
the new cycle, the hub and the handles of the one that has ended, and the connections.

**Main statement** (`Run.AtRest.complete`). So it is for every transition in a step of a run.
-/

namespace Switchboard

open Session in
/-- A transition shows everywhere, and to those who hold some handles. -/
structure Transition.Complete (handles : List CauseHandle) (τ : Transition) : Prop where
  installed : τ.after.installed = τ.caller.installs
  guarded : ∀ (β : Type) (f : Active → Except SessionError β), τ.after.guarded f =
    match τ.caller.installs with
    | none => .error .notConnected
    | some x => f ⟨x, [], .ofCatalog τ.after.connector.catalog⟩
  number : τ.after.cycle.number = τ.ended.number + 1
  registry : τ.after.registry = .empty
  fresh : τ.after.cycle.disconnects.closed = false ∧ τ.after.cycle.disconnects.published = 0
  ended : ∃ c, τ.after.cycle? τ.ended.number = some c ∧ c.disconnects.closed = true ∧
    c.disconnects.published = τ.cause.toList.length
  /-- Calls that were waiting for the end of the cycle have returned. -/
  answered : ∀ call, .call call ∈ τ.ended.disconnects.waiters →
    .cause call τ.cause ∈ τ.after.completions
  /-- Handles on which nothing waited have the cause, unless they were cancelled, and then end. -/
  handles : ∀ H ∈ handles, H.cycle = τ.ended.number → τ.after.isWaitingForCause H = false ∧
    (τ.after.drainCauses H).2 =
      ⟨if (τ.ended.disconnects.pipeline? H.id).any (fun p => p.isOpen && p.receiver.isNone)
        then τ.cause.toList else [], true⟩
  /-- All connections but that of the installed session are torn down. -/
  tornDown : ∀ x, x ∈ τ.after.connector.tornDown ↔
    1 ≤ x ∧ x ≤ τ.after.connector.lastSerial ∧ τ.after.installed ≠ some x
  pending : ∀ x ∈ τ.after.connector.pending, τ.after.installed = some x

namespace Session

/-! ## Transitions -/

theorem announce_parked {s : Session} (hg : s.messages.Good) {who : LifecycleCall} {m : Message}
    (hparked : (s.announce who m).2 = false) :
    who ∈ parkedCalls (s.announce who m).1.messages := by
  cases hresult : (s.messages.publish who m).result with
  | returned n =>
    obtain ⟨s', hannounce, -⟩ := announce_of_returned hresult
    rw [hannounce] at hparked
    cases hparked
  | parked =>
    obtain ⟨s', hannounce, hcore⟩ := announce_of_parked hresult
    obtain ⟨-, hmessages, -⟩ := eq_of_core hcore
    rw [hannounce, show s'.messages = _ from hmessages]
    exact mem_parkedCalls_of_parked hg hresult

section occurs

variable {step : Step} {call : Nat} {owner : Nat → Option CauseHandle} {t : Scene}
  {τ : Transition} {ready : List Watch}

theorem Occurs.ended (ho : Occurs step call t τ ready) : τ.ended = t.session.cycle := by
  cases ho with
  | join hstep hh hok hi =>
    rw [establish_of_ok hok]
    rfl
  | leave _ _ => rfl
  | watch _ _ _ => rfl

theorem Occurs.registry (ho : Occurs step call t τ ready) : τ.after.registry = .empty :=
  registry_of_turn ho.desk

theorem Occurs.active (ho : Occurs step call t τ ready) :
    τ.after.active = τ.caller.installs.map fun x =>
      ⟨x, [], .ofCatalog τ.after.connector.catalog⟩ := by
  have hcatalog : τ.after.connector.catalog = t.session.connector.catalog :=
    congrArg Desk.catalog ho.desk
  rw [hcatalog]
  exact congrArg Desk.active ho.desk

theorem Occurs.cycle (ho : Occurs step call t τ ready) (hv : Valid owner t)
    (hu : Unspent t.session.trail) :
    ∃ h, Hub.Ended τ.cause τ.ended.disconnects h ∧
      τ.after.trail.number = τ.ended.number + 1 ∧
      τ.after.trail.spent τ.ended.number = some τ.cause.toList.length ∧
      τ.after.trail.answered = t.session.trail.answered ++
        (τ.ended.disconnects.waiters.map (·, τ.cause)).filterMap callOf ∧
      ∀ H ∈ t.handles, H.cycle = τ.ended.number →
        τ.after.trail.slot H.cycle H.id = h.pipeline? H.id := by
  have hrel := ho.not_released hv
  obtain ⟨s₀, ht₀, ht⟩ := ho.trail
  have htrail : τ.after.trail = _ := (trail_announce _ _ _).trans ht
  have hnumber₀ : s₀.trail.number = τ.ended.number := by
    rw [ht₀, ho.ended]
    rfl
  have hhub : s₀.cycle.disconnects = τ.ended.disconnects := by
    have hk := trail_hub?_number (s := s₀)
    rw [ht₀, trail_hub?_number, Option.some.injEq] at hk
    rw [← hk, ho.ended]
  have horderly := hv.orderly
  rw [← ht₀] at horderly hu ⊢
  have hrel₀ : s₀.released = false := (congrArg Trail.released ht₀).trans hrel
  obtain ⟨hnumber, hspent⟩ := spent_turnCycle horderly hrel₀ τ.cause
    (τ.caller.installs.map fun x => ⟨x, [], .ofCatalog s₀.connector.catalog⟩)
  obtain ⟨h, hended, -, hstirs, -⟩ := turnCycle_spec horderly hrel₀ τ.cause
    (τ.caller.installs.map fun x => ⟨x, [], .ofCatalog s₀.connector.catalog⟩)
  rw [hhub] at hended hstirs
  rw [htrail]
  refine ⟨h, hended, ?number, ?spent, hstirs.answered, fun H hH hcycle => ?slot⟩
  case number => rw [hnumber, hnumber₀]
  case spent =>
    rw [hspent, hnumber₀, if_neg (Nat.ne_of_lt (Nat.lt_succ_self _)), if_pos rfl, hu.published,
      Nat.zero_add]
  case slot =>
    rw [hstirs.slot H hH, hcycle, ← hnumber₀]
    exact Trail.slot_turn_self s₀.trail h H.id

/-- A handle of a cycle that has ended tells the cause, unless a receive has got it, and ends. -/
theorem drainCauses_of_ended {s : Session} {handles : List CauseHandle}
    (ho : Orderly owner handles s.trail) {H : CauseHandle} {h h' g : Hub Unit CauseReader Cause}
    {cause : Option Cause} (hl : h.Calm) (hk : s.trail.hub? H.cycle = some g)
    (hend : Hub.Ended cause h h') (hslot : s.trail.slot H.cycle H.id = h'.pipeline? H.id)
    (hfresh : ∀ p, h.pipeline? H.id = some p → p.unread = []) :
    s.isWaitingForCause H = false ∧ (s.drainCauses H).2 =
      ⟨if (h.pipeline? H.id).any (fun p => p.isOpen && p.receiver.isNone)
        then cause.toList else [], true⟩ := by
  obtain ⟨c, hc, rfl⟩ := Option.map_eq_some_iff.mp hk
  have hpipe : c.disconnects.pipeline? H.id = (h.pipeline? H.id).map (·.bidden cause) := by
    rw [← hend.pipeline, ← hslot, Trail.slot_of_hub hk]
  have hdrain : (s.drainCauses H).2 = (c.disconnects.drain H.id).result := by
    rw [drainCauses, onCauses, show s.cycle? H.cycle = some c from hc]
  rw [hdrain, isWaitingForCause, show s.cycle? H.cycle = some c from hc, Option.any_some]
  cases hp : h.pipeline? H.id with
  | none =>
    rw [hp, Option.map_none] at hpipe
    have hread : c.disconnects.tryReceive H.id = ⟨c.disconnects, .ended, [], []⟩ := by
      rw [Hub.tryReceive, hpipe]
    rw [Hub.isWaiting, hpipe, Hub.drain, Hub.drainUpTo, hread]
    exact ⟨rfl, rfl⟩
  | some p =>
    rw [hp, Option.map_some] at hpipe
    have hg := ho.calm _ _ hk
    have hunread := ((hl.sound.fits_of hp).settled).unread_bidden (hfresh p hp) cause
    have hlength : (p.bidden cause).unread.length < c.disconnects.backlog H.id + 1 := by
      rw [hg.backlog_eq hpipe]
      exact Nat.lt_succ_self _
    obtain ⟨-, -, hresult, -⟩ := Hub.Calm.drainUpTo_at (c.disconnects.backlog H.id + 1) []
      (r := ⟨c.disconnects, (), [], []⟩) hg hpipe hlength
    rw [Hub.isWaiting_eq hpipe, Hub.drain, hresult, hunread]
    exact ⟨rfl, rfl⟩

/-- **A transition is complete when it is announced.** -/
theorem Occurs.complete (ho : Occurs step call t τ ready) (hv : Valid owner t)
    (hu : Unspent t.session.trail) : τ.Complete t.handles := by
  have hturns := ho.turns hv
  have hv' := hturns.valid hv
  have hu' := hturns.unspent hv hu
  obtain ⟨h, hend, hnumber, hspent, hanswered, hslot⟩ := ho.cycle hv hu
  have hrel : τ.after.released = false :=
    (congrArg Books.released ho.books.1).trans (ho.apart.2.1.trans (ho.not_released hv))
  have hended : ∃ c, τ.after.cycle? τ.ended.number = some c ∧
      c.disconnects.published = τ.cause.toList.length := by
    obtain ⟨g, hg, hpublished⟩ := Option.map_eq_some_iff.mp hspent
    obtain ⟨c, hc, rfl⟩ := Option.map_eq_some_iff.mp hg
    exact ⟨c, hc, hpublished⟩
  obtain ⟨c, hc, hpublished⟩ := hended
  have hk := trail_hub?_of_cycle? hc
  have hcurrent : t.session.trail.hub? t.session.trail.number = some τ.ended.disconnects := by
    rw [ho.ended]
    exact trail_hub?_number
  have hactive := ho.active
  have hinstalled : τ.after.installed = τ.caller.installs := by
    rw [installed, hactive, Option.map_map]
    exact Option.map_id'
  constructor
  case installed => exact hinstalled
  case guarded =>
    intro β f
    rw [Session.guarded, hactive]
    cases τ.caller.installs <;> rfl
  case number => exact hnumber
  case registry => exact ho.registry
  case fresh =>
    exact ⟨(hv'.orderly.closed _ _ trail_hub?_number).mpr ⟨rfl, hrel⟩, hu'.published⟩
  case ended =>
    refine ⟨c, hc, ?_, hpublished⟩
    refine Bool.eq_true_of_not_eq_false fun hopen => ?_
    have heq := ((hv'.orderly.closed _ _ hk).mp hopen).1
    rw [show τ.after.trail.number = _ from hnumber] at heq
    exact absurd heq (Nat.ne_of_lt (Nat.lt_succ_self _))
  case answered =>
    intro call' hmem
    have hin : (call', τ.cause) ∈ τ.after.trail.answered := by
      rw [hanswered]
      exact List.mem_append_right _
        (List.mem_filterMap.mpr ⟨_, List.mem_map_of_mem hmem, rfl⟩)
    obtain ⟨completion, hmem', heq⟩ := List.mem_filterMap.mp hin
    cases completion with
    | cause call'' cause' =>
      cases heq
      exact hmem'
    | _ => cases heq
  case handles =>
    intro H hH hcycle
    refine drainCauses_of_ended hv'.orderly (hv.orderly.calm _ _ hcurrent) (hcycle ▸ hk) hend
      (hslot H hH hcycle) fun p hp => hv.orderly.fresh H.id p ?_
    rw [Trail.slot_of_hub hcurrent, hp]
  case tornDown =>
    intro x
    have hcount := hv'.accounted.torn x
    rw [← List.count_pos_iff, show τ.after.connector.tornDown.count x = _ from hcount]
    split
    · rename_i h
      exact ⟨fun _ => h, fun _ => Nat.one_pos⟩
    · rename_i h
      exact ⟨fun hlt => absurd hlt (Nat.lt_irrefl 0), fun h' => absurd h' h⟩
  case pending => exact fun x hx => hv'.accounted.pending x hx

theorem Occurs.parked (ho : Occurs step call t τ ready) (hv : Valid owner t)
    (hparked : τ.returned = false) : τ.caller ∈ parkedCalls τ.after.messages := by
  refine announce_parked ?_ hparked
  rw [ho.apart.1]
  exact hv.accounted.good

end occurs

theorem Turns.handles {step : Step} {owner : Nat → Option CauseHandle} {t t' : Scene}
    (h : Turns step owner t t') : ∀ H ∈ t.handles, H ∈ t'.handles := by
  induction h with
  | refl => exact fun _ hH => hH
  | tail _ hturn ih => exact fun H hH => hturn.handles H (ih H hH)

/-- **Every transition in a step is complete when it is announced.** -/
theorem Run.AtRest.complete {r : Run} (hr : r.AtRest) (hu : Unspent r.session.trail) {st : Step}
    {τ : Transition} (hτ : τ ∈ r.log st) :
    τ.Complete r.handles ∧ (τ.returned = false → τ.caller ∈ parkedCalls τ.after.messages) := by
  have hv := hr.valid.append [st]
  obtain ⟨log, t, ready, hdeeds, ho⟩ := (hr.deeds st).exists_occurs hτ
  have hv' := hdeeds.valid hv
  have hcomplete := ho.complete hv' ((hdeeds.turns hv).unspent hv hu)
  refine ⟨{ hcomplete with handles := fun H hH => hcomplete.handles H ?_ }, ho.parked hv'⟩
  exact Turns.handles (hdeeds.turns hv) H hH

end Session

end Switchboard
