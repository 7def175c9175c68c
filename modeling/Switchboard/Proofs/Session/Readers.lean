import Switchboard.Proofs.Session.Cycles

/-!
# Observers move on

When the receive of an observer returns, the observer gives up its subscription and takes another,
or stops. All of this passes by the handles that were given out (`Stirs`).

**Main statements.** `readCauses_spec` for the receives that return, `turnCycle_spec` for the turn of
a cycle and `release_spec` for the end of the last one.
-/

namespace Switchboard.Session

open Hub (Confined)

/-- The observers move, and nobody else notices. -/
structure Stirs (handles : List CauseHandle) (t t' : Trail) : Prop where
  number : t'.number = t.number
  released : t'.released = t.released
  answered : t'.answered = t.answered
  slot : ∀ H ∈ handles, t'.slot H.cycle H.id = t.slot H.cycle H.id

/-- An observer of that name waits for nothing. -/
def Stopped (name : String) (t : Trail) : Prop :=
  ∀ o ∈ t.observers, o.name = name → o.subscription = none

theorem Stirs.refl (handles : List CauseHandle) (t : Trail) : Stirs handles t t :=
  ⟨rfl, rfl, rfl, fun _ _ => rfl⟩

theorem Stirs.trans {handles : List CauseHandle} {t t' t'' : Trail} (h : Stirs handles t t')
    (h' : Stirs handles t' t'') : Stirs handles t t'' :=
  ⟨h'.number.trans h.number, h'.released.trans h.released, h'.answered.trans h.answered,
    fun H hH => (h'.slot H hH).trans (h.slot H hH)⟩

theorem Stopped.setObserver {name : String} {t : Trail} (hs : Stopped name t) {o : Observer}
    (ho : o.name = name → o.subscription = none) : Stopped name (t.setObserver o) := by
  intro p hp hn
  rcases mem_setObserver hp with rfl | hp
  · exact ho hn
  · exact hs p hp hn

section readers

variable {owner : Nat → Option CauseHandle} {handles : List CauseHandle} {s : Session}

theorem mem_of_observer? {name : String} {o : Observer} (h : s.observer? name = some o) :
    o ∈ s.observers ∧ o.name = name :=
  ⟨List.mem_of_find?_eq_some h, by simpa using List.find?_some h⟩

theorem observer?_eq_none {name : String} (h : s.observer? name = none) :
    ∀ o ∈ s.observers, o.name ≠ name := by
  simpa [observer?, List.find?_eq_none] using h

/-! ## Giving up a subscription -/

/-- After an observer gave up its subscription, if it has one. -/
def unsubscribed (s : Session) (o : Observer) : Session :=
  match o.subscription with
  | some (number, id) => s.leaveCycle number id
  | none => s

theorem trail_unsubscribed (ho : Orderly owner handles s.trail) {o : Observer}
    (hmem : o ∈ s.observers) :
    Orderly owner handles (s.unsubscribed o).trail ∧
      (∃ hub?, (s.unsubscribed o).trail = { s.trail with hub? := hub? }) ∧
      ∀ k id, (s.unsubscribed o).trail.slot k id =
        if o.subscription = some (k, id) then none else s.trail.slot k id := by
  unfold unsubscribed
  cases hsub : o.subscription with
  | none => exact ⟨ho, ⟨_, rfl⟩, fun _ _ => (if_neg nofun).symm⟩
  | some at' =>
    obtain ⟨j, i⟩ := at'
    obtain ⟨h, hj, -⟩ := ho.subscribed o hmem j i hsub
    have hgone : (h.abandon i).hub.pipeline? i = none :=
      (Hub.lookup_forget _ i i).trans (if_pos rfl)
    have hc : Confined (.observer o.name) i [] h _ _ := (ho.calm j h hj).confined_abandon
    rw [show (s.leaveCycle j i).trail = s.trail.setHub j (h.abandon i).hub by
      rw [trail_leaveCycle, hj]]
    refine ⟨ho.confined hj hc (Or.inl hgone), ⟨_, rfl⟩, fun k id => ?_⟩
    rw [Trail.slot_setHub]
    by_cases hk : k = j
    · subst hk
      rw [if_pos rfl]
      by_cases hi : id = i
      · subst hi
        rw [if_pos rfl, hgone]
      · rw [if_neg (by simpa using Ne.symm hi), hc.elsewhere id hi, Trail.slot_of_hub hj]
    · rw [if_neg hk, if_neg (by simpa using fun h => absurd h.symm hk)]

/-- What an observer leaves behind is its own subscription. -/
theorem unsubscribed_spec (ho : Orderly owner handles s.trail) {o : Observer}
    (hmem : o ∈ s.observers) :
    Orderly owner handles (s.unsubscribed o).trail ∧
      Stirs handles s.trail (s.unsubscribed o).trail ∧
      (s.unsubscribed o).trail.observers = s.observers ∧
      Unawaited o.name (s.unsubscribed o).trail := by
  obtain ⟨ho', ⟨hub?, htrail⟩, hslot⟩ := trail_unsubscribed ho hmem
  rw [htrail] at ho' hslot ⊢
  refine ⟨ho', ⟨rfl, rfl, rfl, fun H hH => ?_⟩, rfl, fun j i p hp hr => ?_⟩
  · rw [hslot, if_neg (ho.apart H hH o hmem)]
  · -- Whoever waits in its name waits on the subscription that is gone.
    obtain ⟨o', hmem', hname, hsub⟩ := ho'.reads j i p _ hp hr
    rw [hslot, if_pos (ho.eq_of_name hmem' hmem hname ▸ hsub)] at hp
    cases hp

/-! ## Taking another one -/

/-- The pipeline behind the subscription of an observer. -/
def awaiting (s : Session) (name : String) :
    Pipeline (Publication Unit Cause) CauseReader Cause :=
  { (.new s.settings.observerBuffer : Pipeline (Publication Unit Cause) CauseReader Cause) with
    receiver := some (.observer name) }

theorem trail_subscribeObserver_eq (ho : Orderly owner handles s.trail) (hrel : s.released = false)
    (o : Observer) :
    (s.subscribeObserver o).trail =
      (s.trail.setHub s.trail.number (s.cycle.disconnects.register (s.awaiting o.name)).1).setObserver
        { o with subscription := some (s.trail.number, s.cycle.disconnects.lastId + 1) } := by
  have hc : s.cycle.disconnects.closed = false :=
    (ho.closed _ _ (trail_hub?_number (s := s))).mpr ⟨rfl, hrel⟩
  have hwaiting : s.cycle.disconnects.subscribeWaiting s.settings.observerBuffer (.observer o.name) =
      s.cycle.disconnects.register (s.awaiting o.name) := by
    rw [Hub.subscribeWaiting, if_neg (by simp [hc])]
    rfl
  rw [trail_subscribeObserver, hwaiting]
  rfl

theorem slot_subscribeObserver (ho : Orderly owner handles s.trail) (hrel : s.released = false)
    (o : Observer) (k : Nat) (id : SubscriptionId) :
    (s.subscribeObserver o).trail.slot k id =
      if k = s.trail.number ∧ id = s.cycle.disconnects.lastId + 1 then some (s.awaiting o.name)
      else s.trail.slot k id := by
  have hk := trail_hub?_number (s := s)
  rw [trail_subscribeObserver_eq ho hrel]
  exact slot_register hk (ho.calm _ _ hk).sound _ _ _

theorem subscribeObserver_spec (ho : Orderly owner handles s.trail) (hrel : s.released = false)
    {o o' : Observer} (hmem : o' ∈ s.observers) (hname : o'.name = o.name)
    (hu : Unawaited o.name s.trail) :
    Orderly owner handles (s.subscribeObserver o).trail ∧
      Stirs handles s.trail (s.subscribeObserver o).trail := by
  have hk := trail_hub?_number (s := s)
  have ho' := ho.subscribeObserver hk hrel s.settings.observerBuffer hmem hname hu
  rw [← trail_subscribeObserver] at ho'
  refine ⟨ho', ?_⟩
  have hslot := slot_subscribeObserver ho hrel o
  rw [trail_subscribeObserver_eq ho hrel] at hslot ⊢
  refine ⟨rfl, rfl, rfl, fun H hH => ?_⟩
  rw [hslot, if_neg]
  rintro ⟨hcycle, hid⟩
  refine (ho.apart_next hk).2 H hH ?_
  rw [hcycle, hid]

theorem enroll_spec (ho : Orderly owner handles s.trail) (hrel : s.released = false) {o : Observer}
    (hnew : ∀ p ∈ s.observers, p.name ≠ o.name) (hs : o.subscription = none) :
    Orderly owner handles ({ s with observers := s.observers ++ [o] }.subscribeObserver o).trail ∧
      Stirs handles s.trail ({ s with observers := s.observers ++ [o] }.subscribeObserver o).trail := by
  set s₁ : Session := { s with observers := s.observers ++ [o] }
  have ho₁ : Orderly owner handles s₁.trail := ho.enroll hnew hs
  have hu : Unawaited o.name s₁.trail := by
    refine ho₁.unawaited fun p hp hn => ?_
    rcases List.mem_append.mp hp with hp | hp
    · exact absurd hn (hnew p hp)
    · rw [List.mem_singleton.mp hp]
      exact hs
  have hmem : o ∈ s₁.observers := List.mem_append_right _ (List.mem_singleton_self o)
  obtain ⟨ho₂, hstirs⟩ := subscribeObserver_spec ho₁ hrel hmem rfl hu
  exact ⟨ho₂, hstirs.number, hstirs.released, hstirs.answered, hstirs.slot⟩

/-- An observer collects the cause, gives up its subscription, and goes on or stops. -/
theorem observe_of_some {name : String} {o : Observer} (hfind : s.observer? name = some o)
    (cause : Option Cause) :
    let o' := { o with causes := o.causes ++ cause.toList }
    s.observe name cause =
      if cause.isSome && o.stopAfter == some o'.causes.length then
        (s.unsubscribed o).setObserver { o' with subscription := none }
      else (s.unsubscribed o).subscribeObserver o' := by
  rw [observe, hfind]
  rfl

theorem observe_spec (ho : Orderly owner handles s.trail) (hrel : s.released = false)
    (name : String) (cause : Option Cause) :
    Orderly owner handles (s.observe name cause).trail ∧
      Stirs handles s.trail (s.observe name cause).trail ∧
      ∀ other, other ≠ name → Stopped other s.trail → Stopped other (s.observe name cause).trail := by
  cases hfind : s.observer? name with
  | none =>
    have hsame : s.observe name cause = s := by rw [observe, hfind]
    rw [hsame]
    exact ⟨ho, .refl _ _, fun _ _ h => h⟩
  | some o =>
    obtain ⟨hmem, hname⟩ := mem_of_observer? hfind
    obtain ⟨ho₁, hstirs, hobs, hu⟩ := unsubscribed_spec ho hmem
    set s₁ := s.unsubscribed o
    set o₁ : Observer := { o with causes := o.causes ++ cause.toList } with ho₁def
    have hobserve : s.observe name cause = _ := observe_of_some hfind cause
    have hstop : ∀ other, other ≠ name → Stopped other s.trail → ∀ o₂ : Observer, o₂.name = name →
        Stopped other (s₁.trail.setObserver o₂) := by
      intro other hne hs o₂ hn
      have hs₁ : Stopped other s₁.trail := by
        intro p hp
        rw [hobs] at hp
        exact hs p hp
      exact hs₁.setObserver fun h => absurd (h.symm.trans hn) hne
    rw [hobserve]
    split
    · refine ⟨ho₁.setObserver hu fun k id h => (nomatch h), hstirs.trans ⟨rfl, rfl, rfl, fun _ _ => rfl⟩,
        fun other hne hs => hstop other hne hs _ hname⟩
    · have hmem₁ : o ∈ s₁.observers := by
        rw [show s₁.observers = s.observers from hobs]
        exact hmem
      obtain ⟨ho₂, hstirs₂⟩ := subscribeObserver_spec (o := o₁) ho₁ (hstirs.released.trans hrel) hmem₁
        rfl hu
      refine ⟨ho₂, hstirs.trans hstirs₂, fun other hne hs => ?_⟩
      rw [trail_subscribeObserver]
      exact hstop other hne hs _ hname

/-! ## Receives that return -/

/-- The call whose receive has returned, unless it was an observer's. -/
def callOf : CauseReader × Option Cause → Option (Nat × Option Cause)
  | (.call call, cause) => some (call, cause)
  | (.observer _, _) => none

theorem Stirs.answer {t t' : Trail} (h : Stirs handles t t') (received : List (Nat × Option Cause)) :
    Stirs handles (t.answer received) (t'.answer received) :=
  ⟨h.number, h.released, congrArg (· ++ received) h.answered, h.slot⟩

theorem Trail.answer_answer (t : Trail) (a b : List (Nat × Option Cause)) :
    (t.answer a).answer b = t.answer (a ++ b) :=
  congrArg (fun l => { t with answered := l }) (List.append_assoc ..)

theorem trail_complete_cause (s : Session) (call : Nat) (cause : Option Cause) :
    (s.complete (.cause call cause)).trail = s.trail.answer [(call, cause)] :=
  congrArg (fun l => { s.trail with answered := l }) List.filterMap_append

/-- Receives of calls do not move any observer. -/
theorem trail_readCauses_calls (s : Session) {received : List (CauseReader × Option Cause)}
    (hcalls : ∀ r ∈ received, ∀ name, r.1 ≠ .observer name) :
    (s.readCauses received).trail = s.trail.answer (received.filterMap callOf) := by
  induction received generalizing s with
  | nil => exact congrArg (fun a => { s.trail with answered := a }) (List.append_nil _).symm
  | cons r rest ih =>
    obtain ⟨call | name, cause⟩ := r
    · refine (ih _ fun r hr => hcalls r (List.mem_cons_of_mem _ hr)).trans ?_
      rw [trail_complete_cause, Trail.answer_answer]
      rfl
    · exact absurd rfl (hcalls _ (List.mem_cons_self ..) name)

theorem readCauses_spec (ho : Orderly owner handles s.trail) (hrel : s.released = false)
    (received : List (CauseReader × Option Cause)) :
    Orderly owner handles (s.readCauses received).trail ∧
      Stirs handles (s.trail.answer (received.filterMap callOf)) (s.readCauses received).trail ∧
      ∀ other, (∀ r ∈ received, r.1 ≠ .observer other) → Stopped other s.trail →
        Stopped other (s.readCauses received).trail := by
  induction received generalizing s with
  | nil =>
    refine ⟨ho, ⟨rfl, rfl, (List.append_nil _).symm, fun _ _ => rfl⟩, fun _ _ h => h⟩
  | cons r rest ih =>
    have hrest : ∀ other, (∀ r' ∈ r :: rest, r'.1 ≠ .observer other) →
        ∀ r' ∈ rest, r'.1 ≠ .observer other :=
      fun other hne r' hr' => hne r' (List.mem_cons_of_mem _ hr')
    obtain ⟨call | name, cause⟩ := r
    · have hstep := trail_complete_cause s call cause
      have ho₁ : Orderly owner handles (s.complete (.cause call cause)).trail := by
        rw [hstep]
        exact ho.answered _
      obtain ⟨ho', hstirs, hstop⟩ := ih ho₁ hrel
      rw [hstep, Trail.answer_answer] at hstirs
      refine ⟨ho', hstirs, fun other hne hs => hstop other (hrest other hne) ?_⟩
      rw [hstep]
      exact hs
    · obtain ⟨ho₁, hstirs₁, hstop₁⟩ := observe_spec ho hrel name cause
      obtain ⟨ho', hstirs, hstop⟩ := ih ho₁ (hstirs₁.released.trans hrel)
      refine ⟨ho', (hstirs₁.answer _).trans hstirs, fun other hne hs =>
        hstop other (hrest other hne) (hstop₁ other (fun heq => ?_) hs)⟩
      exact hne _ (List.mem_cons_self ..) (congrArg CauseReader.observer heq.symm)

/-! ## The end of a cycle -/

theorem mem_waiters {h : Hub Unit CauseReader Cause} (hs : h.Sound) {c : CauseReader} :
    c ∈ h.waiters ↔ ∃ id p, h.pipeline? id = some p ∧ p.receiver = some c := by
  constructor
  · intro hc
    obtain ⟨⟨id, p⟩, he, hc⟩ := List.mem_flatMap.mp hc
    exact ⟨id, p, hs.pipeline?_of_mem he, Option.mem_toList.mp hc⟩
  · rintro ⟨id, p, hp, hc⟩
    exact List.mem_flatMap.mpr ⟨(id, p), Hub.mem_of_pipeline? hp, Option.mem_toList.mpr hc⟩

/-- Whoever waits in the current cycle is an observer that follows it, or a call. -/
theorem Orderly.not_waiting (ho : Orderly owner handles s.trail) {name : String}
    (hs : Stopped name s.trail) (cause : Option Cause) :
    ∀ r ∈ s.cycle.disconnects.waiters.map (·, cause), r.1 ≠ .observer name := by
  intro r hr heq
  obtain ⟨c, hc, rfl⟩ := List.mem_map.mp hr
  have hk := trail_hub?_number (s := s)
  obtain ⟨id, p, hp, hrec⟩ := (mem_waiters (ho.calm _ _ hk).sound).mp hc
  rw [show c = .observer name from heq] at hrec
  exact ho.unawaited hs _ id p ((Trail.slot_of_hub hk id).trans hp) hrec

/-- The current cycle ends once, whatever its last cause. -/
theorem Orderly.exists_ended (ho : Orderly owner handles s.trail) (hrel : s.released = false)
    (cause : Option Cause) :
    ∃ h, endCycle s.cycle cause =
        ({ s.cycle with disconnects := h }, s.cycle.disconnects.waiters.map (·, cause)) ∧
      Hub.Ended cause s.cycle.disconnects h := by
  have hk := trail_hub?_number (s := s)
  exact endCycle_ended (ho.calm _ _ hk) ((ho.closed _ _ hk).mpr ⟨rfl, hrel⟩)
    (fun id p hp => ho.fresh id p ((Trail.slot_of_hub hk id).trans hp)) cause

/-- **The turn of a cycle.** -/
theorem turnCycle_spec (ho : Orderly owner handles s.trail) (hrel : s.released = false)
    (cause : Option Cause) (active : Option Active) :
    ∃ h, Hub.Ended cause s.cycle.disconnects h ∧
      Orderly owner handles (s.turnCycle cause active).trail ∧
      Stirs handles ((s.trail.turn h).answer
        ((s.cycle.disconnects.waiters.map (·, cause)).filterMap callOf))
          (s.turnCycle cause active).trail ∧
      ∀ other, Stopped other s.trail → Stopped other (s.turnCycle cause active).trail := by
  obtain ⟨h, hend, hended⟩ := ho.exists_ended hrel cause
  obtain ⟨s', htrail, hturn⟩ := trail_turnCycle hend active
  have ho' : Orderly owner handles s'.trail := by
    rw [htrail]
    exact ho.turn trail_hub?_number hrel hended
  have hrel' : s'.released = false := (congrArg Trail.released htrail).trans hrel
  have hobs : s'.trail.observers = s.trail.observers := by
    rw [htrail]
    rfl
  obtain ⟨ho'', hstirs, hstop⟩ :=
    readCauses_spec ho' hrel' (s.cycle.disconnects.waiters.map (·, cause))
  rw [htrail] at hstirs
  rw [hturn]
  refine ⟨h, hended, ho'', hstirs, fun other hs => hstop other (ho.not_waiting hs cause) ?_⟩
  intro o hmem
  rw [hobs] at hmem
  exact hs o hmem

theorem trail_release {h : Hub Unit CauseReader Cause}
    (hend : endCycle s.cycle none =
      ({ s.cycle with disconnects := h }, s.cycle.disconnects.waiters.map (·, none))) :
    ∃ s' : Session,
      s'.trail = { s.trail.setHub s.trail.number h with released := true } ∧
        s.release.trail = (s'.readCauses (s.cycle.disconnects.waiters.map (·, none))).trail := by
  have hput : ∀ s₁ : Session, s₁.trail = s.trail → s₁.cycle = s.cycle →
      ({ s₁ with
        cycle := { s.cycle with disconnects := h }
        messages := s₁.messages.close.hub
        watches := []
        released := true } : Session).trail =
          { s.trail.setHub s.trail.number h with released := true } := by
    intro s₁ htrail hcycle
    rw [← htrail, ← trail_setCurrent, hcycle]
    rfl
  unfold release
  cases s.active with
  | none =>
    dsimp only
    rw [hend]
    exact ⟨_, hput s rfl rfl, trail_readMessages _ _⟩
  | some a =>
    dsimp only
    rw [show ({ (s.teardown a.session).1.record (·.disconnect .cancelled) with
      active := none } : Session).cycle = s.cycle from rfl, hend]
    exact ⟨_, hput { (s.teardown a.session).1.record (·.disconnect .cancelled) with active := none }
      rfl rfl, trail_readMessages _ _⟩

theorem Orderly.trail_release (ho : Orderly owner handles s.trail) (hrel : s.released = false)
    (hidle : ∀ o ∈ s.observers, o.subscription = none) :
    ∃ h, Hub.Ended none s.cycle.disconnects h ∧ s.release.trail =
      ({ s.trail.setHub s.trail.number h with released := true } : Trail).answer
        ((s.cycle.disconnects.waiters.map (·, none)).filterMap callOf) := by
  obtain ⟨h, hend, hended⟩ := ho.exists_ended hrel none
  obtain ⟨s', htrail, hrelease⟩ := Session.trail_release hend
  rw [trail_readCauses_calls _ fun r hr name =>
    ho.not_waiting (fun o hmem _ => hidle o hmem) none r hr, htrail] at hrelease
  exact ⟨h, hended, hrelease⟩

/-- **The end of the last cycle.** -/
theorem release_spec (ho : Orderly owner handles s.trail) (hrel : s.released = false)
    (hidle : ∀ o ∈ s.observers, o.subscription = none) :
    ∃ h, Hub.Ended none s.cycle.disconnects h ∧
      Orderly owner handles s.release.trail ∧
      Stirs handles (({ s.trail.setHub s.trail.number h with released := true } : Trail).answer
        ((s.cycle.disconnects.waiters.map (·, none)).filterMap callOf)) s.release.trail ∧
      ∀ other, Stopped other s.release.trail := by
  obtain ⟨h, hended, htrail⟩ := ho.trail_release hrel hidle
  rw [htrail]
  exact ⟨h, hended, (ho.release trail_hub?_number hended hidle).answered _, .refl _ _,
    fun _ o hmem _ => hidle o hmem⟩

end readers

end Switchboard.Session
