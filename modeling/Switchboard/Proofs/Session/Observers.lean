import Switchboard.Proofs.Session.Collections

/-!
# Observers from their start to their stop

What an observer has collected whenever one looks, and what is left of it once it has stopped.

**Stopping** (`Withdrawn`). Whether somebody stops an observer or it stops itself when a receive
returns, it gives up its own subscription, and nobody else notices. If nobody holds the state any
more then, it is released, as it is after any last holder.

**Afterwards** (`Retired`). What the observer has collected stays as it is, and no subscription of
the installed hub is its own.

**Main statement** (`observers_collect_endings`).
-/

namespace Switchboard.Session

/-! ## Withdrawing -/

/-- The observer `o` has withdrawn, as `o'`. Its own subscription is gone, and nothing else has
changed. -/
structure Withdrawn (o o' : Observer) (s s' : Session) : Prop where
  own : s'.observer? o.name = some o'
  others : ∀ name, name ≠ o.name → s'.observer? name = s.observer? name
  gone : ∀ k id, o.subscription = some (k, id) → s'.trail.slot k id = none
  slot : ∀ k id, o.subscription ≠ some (k, id) → s'.trail.slot k id = s.trail.slot k id
  number : s'.trail.number = s.trail.number
  answered : s'.trail.answered = s.trail.answered
  life : s'.life = s.life

/-- Forget the observer of a name. -/
def forget (s : Session) (name : String) : Session :=
  { s with observers := s.observers.filter (·.name != name) }

section withdrawing

variable {owner : Nat → Option CauseHandle} {handles : List CauseHandle} {s : Session}
  {name : String} {o : Observer}

theorem observer?_of_mem (ho : Orderly owner handles s.trail) (hmem : o ∈ s.observers) :
    s.observer? o.name = some o := by
  cases hfind : s.observer? o.name with
  | none => exact absurd rfl (observer?_eq_none hfind o hmem)
  | some p =>
    obtain ⟨hmem', hname⟩ := mem_of_observer? hfind
    rw [ho.eq_of_name hmem' hmem hname]

theorem observer?_forget (s : Session) (name : String) : (s.forget name).observer? name = none := by
  refine List.find?_eq_none.mpr fun o hmem => ?_
  simpa using (List.mem_filter.mp hmem).2

theorem withdrawn_unsubscribed (ho : Orderly owner handles s.trail) (hmem : o ∈ s.observers)
    (o' : Observer) (hname : o'.name = o.name) :
    Withdrawn o o' s ((s.unsubscribed o).setObserver o') := by
  obtain ⟨-, ⟨hub?, htrail⟩, hslot⟩ := trail_unsubscribed ho hmem
  refine ⟨?own, fun name hne => ?others, fun k id hsub => (hslot k id).trans (if_pos hsub),
    fun k id hsub => (hslot k id).trans (if_neg hsub), ?number, ?answered, ?life⟩
  case own =>
    rw [observer?_setObserver, if_pos hname.symm, observer?_unsubscribed, observer?_of_mem ho hmem]
    rfl
  case others =>
    rw [observer?_setObserver, if_neg (hname ▸ hne), observer?_unsubscribed]
  case number =>
    show (s.unsubscribed o).trail.number = _
    rw [htrail]
  case answered =>
    show (s.unsubscribed o).trail.answered = _
    rw [htrail]
  case life =>
    show (s.unsubscribed o).life = s.life
    unfold unsubscribed
    split
    · exact life_leaveCycle s _ _
    · rfl

/-- **An observer that is stopped withdraws**, and then the state is released if nobody holds it. -/
theorem stopObserver_withdrawn (ho : Orderly owner handles s.trail) (hq : Quiet s) (hk : Kept s)
    (hfind : s.observer? name = some o) :
    ∃ s', Withdrawn o { o with subscription := none } s s' ∧ Orderly owner handles s'.trail ∧
      s.stopObserver name = s'.releaseIfUnheld := by
  obtain ⟨hmem, rfl⟩ := mem_of_observer? hfind
  rw [stopObserver, hfind]
  dsimp only
  cases hsub : o.subscription with
  | none =>
    have hsame : { o with subscription := none } = o := by rw [← hsub]
    rw [hsame]
    refine ⟨s, ⟨hfind, fun _ _ => rfl, fun k id h => ?_, fun _ _ _ => rfl, rfl, rfl, rfl⟩, ho,
      (releaseIfUnheld_of_kept hk).symm⟩
    rw [hsub] at h
    cases h
  | some at' =>
    obtain ⟨number, id⟩ := at'
    have hw := withdrawn_unsubscribed ho hmem { o with subscription := none } rfl
    rw [unsubscribed, hsub] at hw
    have hquiet : Quiet ((s.leaveCycle number id).setObserver { o with subscription := none }) := by
      intro w hmem
      rw [show Session.watches _ = s.watches from congrArg Life.watches hw.life] at hmem
      exact hq w hmem
    exact ⟨_, hw, (stop_spec ho hfind hsub).1, settle_of_quiet hquiet⟩

/-- **An observer that stops itself withdraws** with its last cause. -/
theorem observe_withdrawn (ho : Orderly owner handles s.trail) (hfind : s.observer? name = some o)
    (hlast : o.stopAfter = some (o.causes.length + 1)) (cause : Cause) :
    Withdrawn o { o with causes := o.causes ++ [cause], subscription := none } s
      (s.observe name (some cause)) := by
  obtain ⟨hmem, -⟩ := mem_of_observer? hfind
  have hobserve : s.observe name (some cause) = _ := observe_of_some hfind (some cause)
  rw [hobserve, if_pos (by simp [hlast])]
  exact withdrawn_unsubscribed ho hmem _ rfl

theorem observers_releaseIfUnheld (ho : Orderly owner handles s.trail) :
    s.releaseIfUnheld.trail.observers = s.trail.observers := by
  unfold releaseIfUnheld
  split
  · rfl
  · rename_i h
    rw [Bool.or_eq_true, not_or, Bool.not_eq_true, Bool.not_eq_true] at h
    obtain ⟨h', -, htrail⟩ := ho.trail_release h.1 (idle_of_not_isHeld h.2)
    rw [htrail]
    rfl

end withdrawing

/-! ## Starting -/

theorem collects_startObserver (s : Session) (name : String) (stopAfter : Option Nat) :
    Collects name stopAfter [] (s.startObserver name stopAfter) := by
  set o : Observer := ⟨name, stopAfter, [], none⟩
  set s₁ : Session :=
    { s.dropObserver name with observers := (s.dropObserver name).observers ++ [o] } with hs₁
  obtain ⟨at', hsub⟩ := observer?_subscribeObserver s₁ o
  have hthere : (s₁.observer? name).isSome = true := by
    rw [observer?, List.find?_isSome]
    exact ⟨o, List.mem_append_right _ (List.mem_singleton_self o), decide_eq_true rfl⟩
  obtain ⟨p, hp⟩ := Option.isSome_iff_exists.mp hthere
  have hfind : (s.startObserver name stopAfter).observer? name =
      some { o with subscription := some at' } := by
    refine (hsub name).trans ((if_pos rfl).trans ?_)
    rw [hp]
    rfl
  refine ⟨_, hfind, rfl, ?_, ?_⟩
  · rcases stopAfter with _ | _ | n <;> rfl
  · rcases stopAfter with _ | _ | n <;> rfl

/-! ## After the stop -/

/-- The observer `o` has stopped. It is there as it was then, unless it was dropped, and every
subscription of the installed hub is a handle's or another observer's. -/
structure Retired (o : Observer) (dropped : Prop) (r : Run) : Prop where
  kept : r.session.observer? o.name = some { o with subscription := none } ∨
    dropped ∧ r.session.observer? o.name = none
  gone : ∀ id p, r.session.cycle.disconnects.pipeline? id = some p →
    ⟨r.session.cycle.number, id⟩ ∈ r.handles ∨
      ∃ other ∈ r.session.observers, other.name ≠ o.name ∧
        other.subscription = some (r.session.cycle.number, id)

section rest

variable {r : Run} {st : Step} {name : String} {o : Observer}

theorem stopped_of_observer? {owner : Nat → Option CauseHandle} {handles : List CauseHandle}
    {s : Session} (ho : Orderly owner handles s.trail)
    (h : ∀ p, s.observer? name = some p → p.subscription = none) : Stopped name s.trail := by
  rintro p hmem rfl
  exact h p (observer?_of_mem ho hmem)

theorem Run.AtRest.observer?_stop (hr : r.AtRest) (hfind : r.session.observer? name = some o) :
    (r.next (.stopObserver name)).session.observer? name =
      some { o with subscription := none } := by
  obtain ⟨s, hw, ho, hstop⟩ :=
    stopObserver_withdrawn (s := r.session) hr.valid.orderly hr.quiet hr.kept hfind
  obtain ⟨-, rfl⟩ := mem_of_observer? hfind
  show (r.session.stopObserver o.name).observer? o.name = _
  rw [hstop, observer?_congr (observers_releaseIfUnheld ho) o.name]
  exact hw.own

theorem Run.observer?_drop (r : Run) (name : String) :
    (r.next (.dropObserver name)).session.observer? name = none :=
  observer?_forget (r.session.stopObserver name) name

theorem Run.AtRest.observer?_next (hr : r.AtRest) (hstopped : Stopped name r.session.trail)
    (hst : ∀ stopAfter, st ≠ .startObserver name stopAfter) :
    (r.next st).session.observer? name = r.session.observer? name ∨
      st = .dropObserver name ∧ (r.next st).session.observer? name = none := by
  by_cases hstops : st.Stops name
  · cases st with
    | stopObserver n =>
      obtain rfl : n = name := hstops
      refine Or.inl ?_
      cases hfind : r.session.observer? n with
      | none =>
        have hstop : r.session.stopObserver n = r.session := by rw [stopObserver, hfind]
        show (r.session.stopObserver n).observer? n = none
        rw [hstop, hfind]
      | some o =>
        obtain ⟨hmem, hname⟩ := mem_of_observer? hfind
        rw [hr.observer?_stop hfind, ← hstopped o hmem hname]
    | dropObserver n =>
      obtain rfl : n = name := hstops
      exact Or.inr ⟨rfl, r.observer?_drop n⟩
    | startObserver n stopAfter =>
      obtain rfl : n = name := hstops
      exact absurd rfl (hst stopAfter)
    | _ => exact hstops.elim
  · exact Or.inl ((hr.goes st).turns.observer? (hr.valid.append [st]) hr.signalled hstopped hstops)

theorem Run.AtRest.observer?_extend (hr : r.AtRest) {steps : List Step}
    (hstopped : Stopped name r.session.trail)
    (hsteps : ∀ st ∈ steps, ∀ stopAfter, st ≠ .startObserver name stopAfter) :
    Stopped name (r.extend steps).session.trail ∧
      ((r.extend steps).session.observer? name = r.session.observer? name ∨
        .dropObserver name ∈ steps ∧ (r.extend steps).session.observer? name = none) := by
  induction steps generalizing r with
  | nil => exact ⟨hstopped, Or.inl rfl⟩
  | cons st steps ih =>
    have hst := hsteps st (List.mem_cons_self ..)
    have hstopped' : Stopped name (r.next st).session.trail :=
      (hr.goes st).turns.stopped (hr.valid.append [st]) hst hstopped
    obtain ⟨hlast, hsame | ⟨hdrop, hnone⟩⟩ :=
      ih (hr.next st) hstopped' fun st' h => hsteps st' (List.mem_cons_of_mem _ h)
    · refine ⟨hlast, ?_⟩
      rcases hr.observer?_next hstopped hst with hfirst | ⟨rfl, hfirst⟩
      · exact Or.inl (hsame.trans hfirst)
      · exact Or.inr ⟨List.mem_cons_self .., hsame.trans hfirst⟩
    · exact ⟨hlast, Or.inr ⟨List.mem_cons_of_mem _ hdrop, hnone⟩⟩

theorem Attended.retired (ha : Attended r.handles [] r.session.trail) {dropped : Prop}
    (hstopped : Stopped o.name r.session.trail)
    (hkept : r.session.observer? o.name = some { o with subscription := none } ∨
      dropped ∧ r.session.observer? o.name = none) : Retired o dropped r := by
  refine ⟨hkept, fun id p hp => ?_⟩
  have hslot : r.session.trail.slot r.session.trail.number id = some p :=
    (Trail.slot_of_hub trail_hub?_number id).trans hp
  refine (ha.owned _ id p hslot).imp_right fun ⟨q, hmem, hsub⟩ => ⟨q, hmem, fun hname => ?_, hsub⟩
  rw [hstopped q hmem hname] at hsub
  cases hsub

/-- **An observer that stopped by itself, was stopped or was dropped is retired for good.** -/
theorem Run.AtRest.retired_extend (hr : r.AtRest) (ha : Attended r.handles [] r.session.trail)
    (hfind : r.session.observer? o.name = some o) {later : List Step}
    (hend : o.isRunning = false ∨ ∃ rest,
      later = .stopObserver o.name :: rest ∨ later = .dropObserver o.name :: rest)
    (hlater : ∀ st ∈ later, ∀ stopAfter, st ≠ .startObserver o.name stopAfter) :
    Retired o (.dropObserver o.name ∈ later) (r.extend later) := by
  have hlast := hr.attended_extend ha later
  rcases hend with hidle | ⟨rest, rfl | rfl⟩
  · rw [Observer.isRunning, Option.isSome_eq_false_iff, Option.isNone_iff_eq_none] at hidle
    have hsame : { o with subscription := none } = o := by rw [← hidle]
    have hstopped : Stopped o.name r.session.trail := by
      refine stopped_of_observer? hr.valid.orderly fun p hp => ?_
      rw [hfind, Option.some.injEq] at hp
      rw [← hp, hidle]
    obtain ⟨hstill, hkept⟩ := hr.observer?_extend hstopped hlater
    rw [hfind] at hkept
    exact hlast.retired hstill (by rwa [hsame])
  · have hstop := hr.observer?_stop hfind
    have hstopped : Stopped o.name (r.next (.stopObserver o.name)).session.trail := by
      refine stopped_of_observer? (hr.next _).valid.orderly fun p hp => ?_
      have hp' : (r.next (.stopObserver o.name)).session.observer? o.name = some p := hp
      rw [hstop, Option.some.injEq] at hp'
      rw [← hp']
    obtain ⟨hstill, hkept⟩ := (hr.next _).observer?_extend hstopped fun st h =>
      hlater st (List.mem_cons_of_mem _ h)
    rw [hstop] at hkept
    exact hlast.retired hstill (hkept.imp_right fun h => ⟨List.mem_cons_of_mem _ h.1, h.2⟩)
  · have hnone := r.observer?_drop o.name
    have hstopped : Stopped o.name (r.next (.dropObserver o.name)).session.trail := by
      refine stopped_of_observer? (hr.next _).valid.orderly fun p hp => ?_
      have hp' : (r.next (.dropObserver o.name)).session.observer? o.name = some p := hp
      rw [hnone] at hp'
      cases hp'
    obtain ⟨hstill, hkept⟩ := (hr.next _).observer?_extend hstopped fun st h =>
      hlater st (List.mem_cons_of_mem _ h)
    rw [hnone, or_iff_left_of_imp And.right] at hkept
    exact hlast.retired hstill (Or.inr ⟨List.mem_cons_self .., hkept⟩)

end rest

/-! ## Runs -/

section runs

variable (settings : Settings) (players : List Player) (catalog : List Packet.Entry)

/-- **Every observer collects the causes of the sessions that end while it runs.**

Let a holder start an observer, and let some steps follow that do not stop it. It has collected, in
order and each once, the causes of the sessions that ended in those steps by a disconnect or by
their own signal, up to the number after which it stops itself. Connects add nothing, and neither
does anything else that leaves the installed session alone.

Once it has stopped by itself, or was stopped or dropped, it does not run, its list stays as it is,
and no subscription of the installed hub is its own. The stop itself does nothing to anybody else,
whether it comes from outside or with the receive of its last cause. -/
theorem observers_collect_endings (before : List Step) (name : String) (stopAfter : Option Nat)
    (hholder : (run settings players catalog before).session.hasHandle = true) (during : List Step)
    (hduring : ∀ st ∈ during, ¬ st.Stops name) :
    let started := run settings players catalog (before ++ [.startObserver name stopAfter])
    let r := started.extend during
    ∃ o, r.session.observer? name = some o ∧ o.stopAfter = stopAfter ∧
      o.causes = upTo stopAfter (started.endings during) ∧
      o.isRunning = !reached stopAfter (started.endings during) ∧
      (∀ k id, o.subscription = some (k, id) → k = r.session.cycle.number) ∧
      (∀ st, st.Connects ∨ (r.next st).session.installed = r.session.installed →
        r.ended st = none) ∧
      (∀ later, (o.isRunning = false ∨ ∃ rest,
          later = .stopObserver name :: rest ∨ later = .dropObserver name :: rest) →
        (∀ st ∈ later, ∀ stopAfter, st ≠ .startObserver name stopAfter) →
        Retired o (.dropObserver name ∈ later) (r.extend later)) ∧
      (∃ s, Withdrawn o { o with subscription := none } r.session s ∧
        (r.next (.stopObserver name)).session = s.releaseIfUnheld.collect.1 ∧
        (r.next (.dropObserver name)).session = (s.releaseIfUnheld.forget name).collect.1) ∧
      ∀ (owner : Nat → Option CauseHandle) (handles : List CauseHandle) (s : Session) (p : Observer)
        (cause : Cause), Orderly owner handles s.trail → s.observer? p.name = some p →
        p.stopAfter = some (p.causes.length + 1) →
        Withdrawn p { p with causes := p.causes ++ [cause], subscription := none } s
          (s.observe p.name (some cause)) := by
  intro started r
  have hstarted : started.AtRest := run_atRest settings players catalog _
  have hattended : Attended started.handles [] started.session.trail :=
    run_attended settings players catalog _
  have hr : r.AtRest := hstarted.extend during
  have ha : Attended r.handles [] r.session.trail := hstarted.attended_extend hattended during
  have hfirst : Collects name stopAfter [] started.session := by
    refine (collects_startObserver (run settings players catalog before).session name
      stopAfter).congr ?_
    show Session.observer? (run settings players catalog (before ++ [_])).session name = _
    rw [run_snoc]
    show Session.observer? (byHolder _ _).session name = _
    rw [byHolder, if_pos hholder]
    rfl
  obtain ⟨o, hfind, hstop, hcauses, hrun⟩ := hstarted.collects_extend hattended hduring hfirst
  rw [List.nil_append] at hcauses hrun
  obtain ⟨hmem, rfl⟩ := mem_of_observer? hfind
  obtain ⟨s, hw, -, hstopped⟩ := stopObserver_withdrawn hr.valid.orderly hr.quiet hr.kept hfind
  refine ⟨o, hfind, hstop, hcauses, hrun, fun k id hsub => ?_, fun st hst => ?_,
    fun later hend hlater => hr.retired_extend ha hfind hend hlater, ⟨s, hw, ?_, ?_⟩,
    fun owner handles s p cause ho hp hlast => observe_withdrawn ho hp hlast cause⟩
  · exact (ha.waits o hmem k id hsub List.not_mem_nil).1
  · rcases hst with hst | hst
    · exact Run.ended_of_connects hst
    · cases hended : r.ended st with
      | none => rfl
      | some cause => exact absurd hst ((hr.tells ha st).1 cause hended)
  · rw [← hstopped]
    rfl
  · rw [← hstopped]
    rfl

/-- An observer that stops itself after two causes. A connect is rejected in the first session, and
the third session ends without the observer. -/
theorem observers_collect_endings_two :
    let started := run .standard [] [] [.startObserver "o" (some 2)]
    let during := [.connect (.forServer "s"), .connect (.forServer "s"), .disconnect,
      .connect (.forServer "s"), .dropSignal, .connect (.forServer "s"), .disconnect]
    let r := started.extend during
    started.endings during = [.cancelled, .signalLost, .cancelled] ∧
      ∃ o, r.session.observer? "o" = some o ∧ o.causes = [.cancelled, .signalLost] ∧
        o.isRunning = false ∧ Retired o (.dropObserver "o" ∈ [Step.disown]) (r.extend [.disown]) := by
  intro started during r
  have hendings : started.endings during = [.cancelled, .signalLost, .cancelled] := by
    decide +kernel
  have h := observers_collect_endings .standard [] [] [] "o" (some 2) (by decide +kernel) during
    (by simp [during, Step.Stops])
  dsimp only at h
  rw [List.nil_append, hendings] at h
  obtain ⟨o, hfind, -, hcauses, hrun, -, -, hretired, -⟩ := h
  have hidle : o.isRunning = false := hrun
  exact ⟨hendings, o, hfind, hcauses, hidle, hretired [.disown] (Or.inl hidle) (by simp)⟩

end runs

end Switchboard.Session
