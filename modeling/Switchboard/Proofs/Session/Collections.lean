import Switchboard.Proofs.Session.Attendance
import Switchboard.Proofs.Session.Endings
import Switchboard.Proofs.Session.LastCauses

/-!
# What an observer collects

An observer collects the causes of the sessions that end while it runs, each of them once.

**Collecting** (`Collects`). Told one cause after another, an observer has those up to the number
after which it stops itself. The turn of a cycle tells it the cause of that turn, if there is one.

**One step** (`Heard`). In the course of a step at most one session ends that observers are told of:
the one that was installed before the step. A session that the step itself installs stays.

**Main statement** (`Run.AtRest.collects_extend`). What an observer is told over some steps is what
ended in them (`Run.endings`).
-/

namespace Switchboard.Session

/-! ## Collecting -/

/-- The causes up to the number after which an observer stops itself. -/
def upTo (stopAfter : Option Nat) (causes : List Cause) : List Cause :=
  match stopAfter with
  | some (n + 1) => causes.take (n + 1)
  | some 0 | none => causes

/-- Whether an observer has as many causes as it takes for it to stop itself. -/
def reached (stopAfter : Option Nat) (causes : List Cause) : Bool :=
  match stopAfter with
  | some (n + 1) => n + 1 ≤ causes.length
  | some 0 | none => false

/-- The observer of a name was told some causes. It has those up to the number after which it stops
itself, and runs until then. -/
def Collects (name : String) (stopAfter : Option Nat) (told : List Cause) (s : Session) : Prop :=
  ∃ o, s.observer? name = some o ∧ o.stopAfter = stopAfter ∧ o.causes = upTo stopAfter told ∧
    o.isRunning = !reached stopAfter told

section limit

variable {stopAfter : Option Nat} {causes : List Cause}

theorem upTo_of_not_reached (h : reached stopAfter causes = false) :
    upTo stopAfter causes = causes := by
  match stopAfter with
  | none | some 0 => rfl
  | some (n + 1) =>
    rw [reached, decide_eq_false_iff_not] at h
    exact List.take_of_length_le (by omega)

theorem upTo_append_of_reached (h : reached stopAfter causes = true) (more : List Cause) :
    upTo stopAfter (causes ++ more) = upTo stopAfter causes ∧
      reached stopAfter (causes ++ more) = true := by
  match stopAfter with
  | none | some 0 => cases h
  | some (n + 1) =>
    rw [reached, decide_eq_true_eq] at h
    refine ⟨List.take_append_of_le_length h, ?_⟩
    rw [reached, decide_eq_true_eq, List.length_append]
    omega

/-- An observer that has not reached its number collects one more cause, which may be its last. -/
theorem upTo_append_of_not_reached (h : reached stopAfter causes = false) (cause : Option Cause) :
    upTo stopAfter (causes ++ cause.toList) = causes ++ cause.toList ∧
      reached stopAfter (causes ++ cause.toList) =
        (cause.isSome && stopAfter == some (causes ++ cause.toList).length) := by
  cases cause with
  | none =>
    rw [Option.toList_none, List.append_nil]
    exact ⟨upTo_of_not_reached h, h⟩
  | some cause =>
    match stopAfter with
    | none => exact ⟨rfl, rfl⟩
    | some 0 => exact ⟨rfl, by simp [reached]⟩
    | some (n + 1) =>
      rw [reached, decide_eq_false_iff_not] at h
      refine ⟨List.take_of_length_le (by simp; omega), ?_⟩
      rw [reached, Bool.eq_iff_iff, decide_eq_true_eq]
      simp
      omega

end limit

/-! ## Observers by their names -/

section names

variable {s s' : Session} {name other : String} {o : Observer}

theorem observer?_congr (h : s'.trail.observers = s.trail.observers) (name : String) :
    s'.observer? name = s.observer? name :=
  congrArg (fun l => l.find? fun o : Observer => o.name = name) h

theorem observer?_setObserver (s : Session) (o : Observer) (name : String) :
    (s.setObserver o).observer? name =
      if name = o.name then (s.observer? name).map fun _ => o else s.observer? name := by
  have hfind : ∀ l : List Observer,
      (l.map fun p => if p.name = o.name then o else p).find? (·.name = name) =
        (l.find? (·.name = name)).map fun p => if p.name = o.name then o else p := by
    intro l
    rw [List.find?_map]
    refine congrArg _ (congrArg (l.find? ·) (funext fun p => ?_))
    by_cases hp : p.name = o.name
    · simp [hp]
    · simp [hp]
  show (s.observers.map _).find? _ = _
  rw [hfind]
  show (s.observer? name).map _ = _
  cases hs : s.observer? name with
  | none => simp
  | some p =>
    rw [Option.map_some, Option.map_some, (mem_of_observer? hs).2]
    split <;> rfl

theorem observer?_unsubscribed (s : Session) (o : Observer) (name : String) :
    (s.unsubscribed o).observer? name = s.observer? name := by
  refine observer?_congr ?_ name
  unfold unsubscribed
  split
  · rw [trail_leaveCycle]
    split <;> rfl
  · rfl

theorem observer?_subscribeObserver (s : Session) (o : Observer) :
    ∃ at', ∀ name, (s.subscribeObserver o).observer? name =
      if name = o.name then (s.observer? name).map fun _ => { o with subscription := some at' }
      else s.observer? name :=
  ⟨_, fun name => observer?_setObserver _ _ name⟩

theorem observer?_observe_of_ne (hne : other ≠ name) (cause : Option Cause) :
    (s.observe name cause).observer? other = s.observer? other := by
  cases hfind : s.observer? name with
  | none => rw [observe, hfind]
  | some o =>
    have hobserve : s.observe name cause = _ := observe_of_some hfind cause
    obtain ⟨-, rfl⟩ := mem_of_observer? hfind
    rw [hobserve]
    split
    · rw [observer?_setObserver, if_neg hne, observer?_unsubscribed]
    · obtain ⟨at', hsub⟩ := observer?_subscribeObserver (s.unsubscribed o)
        { o with causes := o.causes ++ cause.toList }
      rw [hsub, if_neg hne, observer?_unsubscribed]

theorem observer?_observe_self (hfind : s.observer? name = some o) (cause : Option Cause) :
    ∃ o', (s.observe name cause).observer? name = some o' ∧ o'.stopAfter = o.stopAfter ∧
      o'.causes = o.causes ++ cause.toList ∧
      o'.isRunning =
        !(cause.isSome && o.stopAfter == some (o.causes ++ cause.toList).length) := by
  have hobserve : s.observe name cause = _ := observe_of_some hfind cause
  obtain ⟨-, rfl⟩ := mem_of_observer? hfind
  rw [hobserve]
  split
  · rename_i hlast
    refine ⟨{ o with causes := o.causes ++ cause.toList, subscription := none }, ?_, rfl, rfl, ?_⟩
    · rw [observer?_setObserver, if_pos rfl, observer?_unsubscribed, hfind]
      rfl
    · rw [hlast]
      rfl
  · rename_i hlast
    obtain ⟨at', hsub⟩ := observer?_subscribeObserver (s.unsubscribed o)
      { o with causes := o.causes ++ cause.toList }
    refine ⟨{ o with causes := o.causes ++ cause.toList, subscription := some at' }, ?_, rfl, rfl,
      ?_⟩
    · rw [hsub, if_pos rfl, observer?_unsubscribed, hfind]
      rfl
    · rw [Bool.eq_false_iff.mpr hlast]
      rfl

theorem observer?_readCauses_of_not_mem {received : List (CauseReader × Option Cause)}
    (h : ∀ r ∈ received, r.1 ≠ .observer name) :
    (s.readCauses received).observer? name = s.observer? name := by
  induction received generalizing s with
  | nil => rfl
  | cons r rest ih =>
    have hrest : ∀ r ∈ rest, r.1 ≠ .observer name := fun r hr => h r (List.mem_cons_of_mem _ hr)
    obtain ⟨call | other, cause⟩ := r
    · exact ih (s := s.complete _) hrest
    · have hne : name ≠ other := fun heq =>
        h _ (List.mem_cons_self ..) (congrArg CauseReader.observer heq.symm)
      exact (ih (s := s.observe other cause) hrest).trans (observer?_observe_of_ne hne cause)

theorem observer?_forget_of_ne (l : List Observer) (hne : name ≠ other) :
    (l.filter (·.name != other)).find? (·.name = name) = l.find? (·.name = name) := by
  rw [List.find?_filter]
  refine congrArg (l.find? ·) (funext fun o => ?_)
  by_cases hn : o.name = name
  · simp [hn, hne]
  · simp [hn]

end names

/-! ## The turn of a cycle -/

section collects

variable {owner : Nat → Option CauseHandle} {handles : List CauseHandle} {s s' : Session}
  {name : String} {stopAfter : Option Nat} {told : List Cause}

theorem Collects.congr (hc : Collects name stopAfter told s)
    (h : s'.observer? name = s.observer? name) : Collects name stopAfter told s' := by
  obtain ⟨o, ho, hrest⟩ := hc
  exact ⟨o, h.trans ho, hrest⟩

theorem Collects.observe (hc : Collects name stopAfter told s)
    (hopen : reached stopAfter told = false) (cause : Option Cause) :
    Collects name stopAfter (told ++ cause.toList) (s.observe name cause) := by
  obtain ⟨o, ho, rfl, hcauses, -⟩ := hc
  obtain ⟨o', ho', hstop, hcauses', hrun⟩ := observer?_observe_self ho cause
  rw [hcauses, upTo_of_not_reached hopen] at hcauses' hrun
  obtain ⟨hupTo, hreached⟩ := upTo_append_of_not_reached hopen cause
  refine ⟨o', ho', hstop, ?_, ?_⟩
  · rw [hupTo]
    exact hcauses'
  · rw [hreached]
    exact hrun

/-- Of some readers that return with a cause, an observer is one at most. -/
theorem Collects.readCauses (hc : Collects name stopAfter told s)
    (hopen : reached stopAfter told = false) {readers : List CauseReader} (hn : readers.Nodup)
    (hmem : .observer name ∈ readers) (cause : Option Cause) :
    Collects name stopAfter (told ++ cause.toList) (s.readCauses (readers.map (·, cause))) := by
  obtain ⟨l₁, l₂, rfl⟩ := List.append_of_mem hmem
  have hothers : ∀ l : List CauseReader, .observer name ∉ l →
      ∀ r ∈ l.map (·, cause), r.1 ≠ .observer name := by
    intro l hnot r hr heq
    obtain ⟨c, hc, rfl⟩ := List.mem_map.mp hr
    exact hnot (heq ▸ hc)
  rw [List.nodup_append, List.nodup_cons] at hn
  have hfirst := hothers l₁ fun h => hn.2.2 _ h _ (List.mem_cons_self ..) rfl
  have hlast := hothers l₂ hn.2.1.1
  have hsplit : s.readCauses ((l₁ ++ .observer name :: l₂).map (·, cause)) =
      ((s.readCauses (l₁.map (·, cause))).observe name cause).readCauses (l₂.map (·, cause)) := by
    rw [List.map_append]
    exact List.foldl_append
  rw [hsplit]
  exact ((hc.congr (observer?_readCauses_of_not_mem hfirst)).observe hopen cause).congr
    (observer?_readCauses_of_not_mem hlast)

theorem observer?_turnCycle_of_stopped (ho : Orderly owner handles s.trail)
    (hrel : s.released = false) (hstopped : Stopped name s.trail) (cause : Option Cause)
    (active : Option Active) : (s.turnCycle cause active).observer? name = s.observer? name := by
  obtain ⟨h, hend, -⟩ := ho.exists_ended hrel cause
  obtain ⟨s', htrail, hturn⟩ := trail_turnCycle hend active
  rw [hturn, observer?_readCauses_of_not_mem (ho.not_waiting hstopped cause)]
  exact observer?_congr (by rw [htrail]; rfl) name

/-- **The turn of a cycle tells every observer its cause once.** -/
theorem Collects.turnCycle (hc : Collects name stopAfter told s)
    (ho : Orderly owner handles s.trail) (hrel : s.released = false)
    (ha : Attended handles [] s.trail) (cause : Option Cause) (active : Option Active) :
    Collects name stopAfter (told ++ cause.toList) (s.turnCycle cause active) := by
  obtain ⟨o, hfind, hstop, hcauses, hrun⟩ := id hc
  obtain ⟨hmem, rfl⟩ := mem_of_observer? hfind
  cases hreached : reached stopAfter told with
  | false =>
    have hk := trail_hub?_number (s := s)
    obtain ⟨h, hend, -⟩ := ho.exists_ended hrel cause
    obtain ⟨s', htrail, hturn⟩ := trail_turnCycle hend active
    have hc' : Collects o.name stopAfter told s' :=
      hc.congr (observer?_congr (by rw [htrail]; rfl) o.name)
    rw [hreached, Observer.isRunning, Bool.not_false] at hrun
    obtain ⟨⟨k, id⟩, hsub⟩ := Option.isSome_iff_exists.mp hrun
    obtain ⟨rfl, p, hp, hr⟩ := ha.waits o hmem k id hsub List.not_mem_nil
    rw [Trail.slot_of_hub hk] at hp
    rw [hturn]
    exact hc'.readCauses hreached (ho.waiters_nodup hk)
      ((mem_waiters (ho.calm _ _ hk).sound).mpr ⟨id, p, hp, hr⟩) cause
  | true =>
    have hstopped : Stopped o.name s.trail := by
      intro p hp hn
      rw [hreached, Observer.isRunning, Bool.not_true, Option.isSome_eq_false_iff,
        Option.isNone_iff_eq_none] at hrun
      rw [ho.eq_of_name hp hmem hn]
      exact hrun
    obtain ⟨hupTo, hreached'⟩ := upTo_append_of_reached hreached cause.toList
    refine ⟨o, ?_, hstop, ?_, ?_⟩
    · rw [observer?_turnCycle_of_stopped ho hrel hstopped]
      exact hfind
    · rw [hupTo]
      exact hcauses
    · rw [hreached', ← hreached]
      exact hrun

end collects

/-! ## Turns -/

/-- What a turn is to an observer: nothing happens, or a cycle ends, with a cause or without. -/
inductive Pace (step : Step) (t t' : Scene) : Option Cause → Prop
  | stays :
      t'.session.trail.number = t.session.trail.number →
      (t'.session.installed = t.session.installed ∨ t'.session.released = true) →
      (∀ name, ¬ step.Stops name → t'.session.observer? name = t.session.observer? name) →
      Pace step t t' none
  /-- A session is installed, where there was none. -/
  | joins {s₀ : Session} {active : Option Active} :
      step.Connects → t.session.released = false → t.session.installed = none →
      t'.session.installed = some (t.session.life.lastSerial + 1) →
      s₀.trail = t.session.trail → t'.session.trail = (s₀.turnCycle none active).trail →
      Pace step t t' none
  /-- The installed session ends. -/
  | ends {x : Serial} {cause : Cause} {s₀ : Session} :
      t.session.released = false → t.session.installed = some x →
      (step = .disconnect ∧ cause = .cancelled ∨ t.signals.lookup x = some cause) →
      t'.session.installed = none →
      s₀.trail = t.session.trail → t'.session.trail = (s₀.turnCycle (some cause) none).trail →
      Pace step t t' (some cause)

section turns

variable {step : Step} {owner : Nat → Option CauseHandle} {t t' t₀ : Scene} {cause : Option Cause}

theorem Turn.pace (h : Turn step owner t t') (hv : Valid owner t)
    (hs : Signalled t.ready t.session.life t.signals) : ∃ cause, Pace step t t' cause := by
  have ho := hv.orderly
  -- Most turns leave the cycle alone, and the observers that the step does not name.
  have hstays : ∀ {t' : Scene} {l : Life}, t'.session.life = l →
      l.installed = t.session.installed → t'.session.trail.number = t.session.trail.number →
      t'.session.trail.observers = t.session.trail.observers → ∃ cause, Pace step t t' cause := by
    intro t' l hl hi hnumber hobs
    exact ⟨none, .stays hnumber (Or.inl ((congrArg Life.installed hl).trans hi))
      fun name _ => observer?_congr hobs name⟩
  have hsame : ∀ {t' : Scene} {l : Life}, t'.session.life = l →
      l.installed = t.session.installed → t'.session.trail = t.session.trail →
      ∃ cause, Pace step t t' cause := by
    intro t' l hl hi ht
    exact hstays hl hi (by rw [ht]) (by rw [ht])
  cases h with
  | aside hl ht => exact hsame hl rfl ht
  | letGo _ hl _ ht => exact hsame hl rfl ht
  | mail _ hl ht => exact hsame (hl.trans (foldl_start _ _)) rfl ht
  | reject hl ht => exact hsame hl rfl ht
  | signal _ hl ht => exact hsame hl rfl ht
  | gather _ => exact hsame rfl rfl rfl
  | stale _ _ => exact hsame rfl rfl rfl
  | join hstep hh hi _ hl ht₀ ht =>
    exact ⟨none, .joins hstep (hv.not_released_of_handle hh) hi
      (congrArg Life.installed (hl.trans (foldl_start _ _))) ht₀ ht⟩
  | leave hstep hi hl ht₀ ht =>
    exact ⟨_, .ends (hv.not_released_of_installed hi) hi (Or.inl ⟨hstep, rfl⟩)
      (congrArg Life.installed hl) ht₀ ht⟩
  | @watch s s₀ w rest cause hready hf hi hl ht₀ ht =>
    have hmem : w ∈ t.ready ++ t.session.life.watches := by
      rw [hready]
      exact List.mem_cons_self ..
    exact ⟨_, .ends (hv.not_released_of_installed hi) hi (Or.inr (hs.fired w hmem hi cause hf))
      (congrArg Life.installed hl) ht₀ ht⟩
  | release _ hrel hh =>
    obtain ⟨h, -, htrail⟩ := ho.trail_release hrel (idle_of_not_isHeld hh)
    refine ⟨none, .stays ?_ (Or.inr ?_) fun name _ => observer?_congr ?_ name⟩
    · show t.session.release.trail.number = _
      rw [htrail]
      rfl
    · show t.session.release.trail.released = _
      rw [htrail]
      rfl
    · show t.session.release.trail.observers = _
      rw [htrail]
      rfl
  | @causes handle use call c _ hH _ hcycle =>
    have htrail := trail_causes ho hH call hcycle use
    have hnumber := congrArg Trail.number htrail
    have hobs := congrArg Trail.observers htrail
    exact hstays ((life_readCauses _ _).trans (life_setCycle _ _)) rfl hnumber hobs
  | follow n _ => exact hstays rfl rfl rfl rfl
  | @stop o number id hstep _ hsub =>
    refine ⟨none, .stays ?_ (Or.inl (congrArg Life.installed (life_leaveCycle _ _ _)))
      fun name hnot => ?_⟩
    · show (t.session.leaveCycle number id).trail.number = _
      rw [trail_leaveCycle]
      split <;> rfl
    · have hne : name ≠ o.name := fun h => hnot (h ▸ hstep)
      have hleave := observer?_unsubscribed t.session o name
      rw [unsubscribed, hsub] at hleave
      exact (observer?_setObserver _ _ name).trans ((if_neg hne).trans hleave)
  | @forget name hstep hn =>
    refine ⟨none, .stays rfl (Or.inl rfl) fun other hnot => ?_⟩
    exact observer?_forget_of_ne _ fun h => hnot (h ▸ hstep)
  | @enroll o hstep _ _ _ =>
    refine ⟨none, .stays rfl (Or.inl rfl) fun name hnot => ?_⟩
    have hne : name ≠ o.name := fun h => hnot (by rw [hstep]; exact h.symm)
    obtain ⟨at', hsub⟩ :=
      observer?_subscribeObserver { t.session with observers := t.session.observers ++ [o] } o
    refine (hsub name).trans ((if_neg hne).trans ?_)
    show (t.session.observers ++ [o]).find? _ = t.session.observers.find? _
    rw [List.find?_append, List.find?_singleton, if_neg (by simpa using Ne.symm hne)]
    exact Option.or_none

theorem Pace.collects (hp : Pace step t t' cause) (hv : Valid owner t)
    (ha : Attended t.handles [] t.session.trail) {name : String} (hnot : ¬ step.Stops name)
    {stopAfter : Option Nat} {told : List Cause} (hc : Collects name stopAfter told t.session) :
    Collects name stopAfter (told ++ cause.toList) t'.session := by
  have hturn : ∀ {s₀ : Session} {cause : Option Cause} {active : Option Active},
      t.session.released = false → s₀.trail = t.session.trail →
      t'.session.trail = (s₀.turnCycle cause active).trail →
      Collects name stopAfter (told ++ cause.toList) t'.session := by
    intro s₀ cause active hrel ht₀ ht
    have ho := hv.orderly
    rw [← ht₀] at ho ha
    exact ((hc.congr (observer?_congr (by rw [ht₀]) name)).turnCycle ho
      ((congrArg Trail.released ht₀).trans hrel) ha cause active).congr
        (observer?_congr (by rw [ht]) name)
  cases hp with
  | stays _ _ hobs =>
    rw [Option.toList_none, List.append_nil]
    exact hc.congr (hobs name hnot)
  | joins _ hrel _ _ ht₀ ht => exact hturn hrel ht₀ ht
  | ends hrel _ _ _ ht₀ ht => exact hturn hrel ht₀ ht

theorem number_turnCycle {s s₀ : Session} {active : Option Active}
    (ho : Orderly owner t.handles t.session.trail) (hrel : t.session.released = false)
    (ht₀ : s₀.trail = t.session.trail) (ht : s.trail = (s₀.turnCycle cause active).trail) :
    s.trail.number = t.session.trail.number + 1 := by
  rw [← ht₀] at ho
  obtain ⟨h', -, -, hstirs, -⟩ :=
    turnCycle_spec ho ((congrArg Trail.released ht₀).trans hrel) cause active
  rw [ht, hstirs.number]
  show s₀.trail.number + 1 = _
  rw [ht₀]

theorem Pace.observer? (hp : Pace step t t' cause) (hv : Valid owner t) {name : String}
    (hstopped : Stopped name t.session.trail) (hnot : ¬ step.Stops name) :
    t'.session.observer? name = t.session.observer? name := by
  have hturn : ∀ {s₀ : Session} {cause : Option Cause} {active : Option Active},
      t.session.released = false → s₀.trail = t.session.trail →
      t'.session.trail = (s₀.turnCycle cause active).trail →
      t'.session.observer? name = t.session.observer? name := by
    intro s₀ cause active hrel ht₀ ht
    have ho := hv.orderly
    rw [← ht₀] at ho hstopped
    have hbefore : s₀.observer? name = t.session.observer? name :=
      observer?_congr (by rw [ht₀]) name
    have hafter : t'.session.observer? name = (s₀.turnCycle cause active).observer? name :=
      observer?_congr (by rw [ht]) name
    rw [hafter, ← hbefore]
    exact observer?_turnCycle_of_stopped ho ((congrArg Trail.released ht₀).trans hrel) hstopped
      cause active
  cases hp with
  | stays _ _ hobs => exact hobs name hnot
  | joins _ hrel _ _ ht₀ ht => exact hturn hrel ht₀ ht
  | ends hrel _ _ _ ht₀ ht => exact hturn hrel ht₀ ht

theorem Turns.observer? (h : Turns step owner t t') (hv : Valid owner t)
    (hs : Signalled t.ready t.session.life t.signals) {name : String}
    (hstopped : Stopped name t.session.trail) (hnot : ¬ step.Stops name) :
    t'.session.observer? name = t.session.observer? name := by
  have hstart : ∀ stopAfter, step ≠ .startObserver name stopAfter := by
    intro stopAfter hstep
    exact hnot (by rw [hstep]; exact rfl)
  induction h with
  | refl => rfl
  | tail hturns hturn ih =>
    have hv' := Turns.valid hturns hv
    obtain ⟨cause, hp⟩ := hturn.pace hv' (Turns.signalled hturns hv.accounted hs)
    exact (hp.observer? hv' (Turns.stopped hturns hv hstart hstopped) hnot).trans ih

/-! ## One step -/

/-- What observers were told between two scenes of a step. -/
inductive Heard (step : Step) (t₀ t : Scene) : List Cause → Prop
  | nothing :
      (step = .disconnect → t₀.session.installed = none) →
      t.session.trail.number = t₀.session.trail.number →
      (t.session.installed = t₀.session.installed ∨ t.session.released = true) →
      Heard step t₀ t []
  /-- A session was installed where there was none. -/
  | joined :
      step.Connects → t₀.session.installed = none →
      (∀ y, t.session.installed = some y → t₀.session.life.lastSerial < y) →
      Heard step t₀ t []
  /-- The session ended that was installed. -/
  | ended {x : Serial} {cause : Cause} :
      t₀.session.installed = some x → t₀.session.trail.number < t.session.trail.number →
      (step = .disconnect ∧ cause = .cancelled ∨
        step ≠ .disconnect ∧ t.signals.lookup x = some cause) →
      (∀ y, t.session.installed = some y → t₀.session.life.lastSerial < y ∧ step.Connects) →
      Heard step t₀ t [cause]

theorem Heard.not_ends {x : Serial} {c : Cause} (hx : t₀.session.life.lastSerial < x)
    (hstep : step.Connects) (hknown : ∀ p ∈ t.signals, p.1 ≤ t₀.session.life.lastSerial)
    (hwhy : step = .disconnect ∧ c = .cancelled ∨ t.signals.lookup x = some c) : False := by
  rcases hwhy with ⟨rfl, -⟩ | hknows
  · exact hstep
  · rw [lookup_eq_none_of_bounded hknown hx] at hknows
    cases hknows

/-- **What one more turn tells is told once.** -/
theorem Heard.pace {told : List Cause} (hh : Heard step t₀ t told) (hp : Pace step t t' cause)
    (hturn : Turn step owner t t') (hv : Valid owner t)
    (hs : Signalled t.ready t.session.life t.signals)
    (hlast : t₀.session.life.lastSerial ≤ t.session.life.lastSerial)
    (hknown : ∀ p ∈ t.signals, p.1 ≤ t₀.session.life.lastSerial) :
    Heard step t₀ t' (told ++ cause.toList) := by
  have hpassed := (hturn.passage hv hs).number
  have hvacant : t'.session.released = true → t'.session.installed = none :=
    (hturn.valid hv).installed_eq_none
  have hnew : t'.session.installed = some (t.session.life.lastSerial + 1) →
      ∀ y, t'.session.installed = some y → t₀.session.life.lastSerial < y := by
    intro hi y hy
    rw [hi, Option.some.injEq] at hy
    rw [← hy]
    exact Nat.lt_succ_of_le hlast
  cases hh with
  | nothing hdisconnect hnumber hi =>
    have hi₀ : t.session.released = false → t₀.session.installed = t.session.installed := by
      intro hrel
      refine (hi.resolve_right fun h => ?_).symm
      rw [hrel] at h
      cases h
    cases hp with
    | stays hnumber' hi' _ =>
      refine .nothing hdisconnect (hnumber'.trans hnumber) ?_
      rcases hi with hi | hrel
      · exact hi'.imp_left fun h => h.trans hi
      · exact Or.inr (hpassed.2 hrel).1
    | joins hstep hrel hnone hi' _ _ =>
      exact .joined hstep ((hi₀ hrel).trans hnone) (hnew hi')
    | @ends x c _ hrel hx hwhy hi' ht₀ ht =>
      have hx₀ := (hi₀ hrel).trans hx
      obtain ⟨more, hmore⟩ := hturn.signals
      refine .ended hx₀ ?_ ?_ fun y hy => ?_
      · rw [number_turnCycle hv.orderly hrel ht₀ ht, hnumber]
        exact Nat.lt_succ_self _
      · have hstep : step ≠ .disconnect := fun h => by
          rw [hdisconnect h] at hx₀
          cases hx₀
        rw [hmore]
        exact Or.inr ⟨hstep, lookup_append_of_some (hwhy.resolve_left fun h => hstep h.1) more⟩
      · rw [hi'] at hy
        cases hy
  | joined hstep hnone hlater =>
    cases hp with
    | stays _ hi' _ =>
      refine .joined hstep hnone fun y hy => ?_
      rcases hi' with hi' | hrel
      · exact hlater y (hi'.symm.trans hy)
      · rw [hvacant hrel] at hy
        cases hy
    | joins _ _ _ hi' _ _ => exact .joined hstep hnone (hnew hi')
    -- What was installed in this step is too new for any end to be known of it.
    | ends _ hx hwhy _ _ _ => exact (Heard.not_ends (hlater _ hx) hstep hknown hwhy).elim
  | @ended x c hx₀ hnumber hwhy₀ hlater =>
    have hwhy' : step = .disconnect ∧ c = .cancelled ∨
        step ≠ .disconnect ∧ t'.signals.lookup x = some c := by
      obtain ⟨more, hmore⟩ := hturn.signals
      rw [hmore]
      exact hwhy₀.imp_right fun h => ⟨h.1, lookup_append_of_some h.2 more⟩
    cases hp with
    | stays _ hi' _ =>
      refine .ended hx₀ (hnumber.trans_le hpassed.1) hwhy' fun y hy => ?_
      rcases hi' with hi' | hrel
      · exact hlater y (hi'.symm.trans hy)
      · rw [hvacant hrel] at hy
        cases hy
    | joins hstep _ _ hi' _ _ =>
      exact .ended hx₀ (hnumber.trans_le hpassed.1) hwhy' fun y hy => ⟨hnew hi' y hy, hstep⟩
    | ends _ hx hwhy _ _ _ =>
      obtain ⟨hlt, hstep⟩ := hlater _ hx
      exact (Heard.not_ends hlt hstep hknown hwhy).elim

/-- **What some turns tell is told once**, to every observer that they do not stop. -/
theorem Turns.heard (h : Turns step owner t t') (hv : Valid owner t)
    (hs : Signalled t.ready t.session.life t.signals) (ha : Attended t.handles [] t.session.trail)
    {before : List Cause} (hh : Heard step t₀ t before)
    (hlast : t₀.session.life.lastSerial ≤ t.session.life.lastSerial)
    (hknown : ∀ p ∈ t'.signals, p.1 ≤ t₀.session.life.lastSerial) :
    ∃ more, Heard step t₀ t' (before ++ more) ∧ ∀ name, ¬ step.Stops name → ∀ stopAfter told,
      Collects name stopAfter told t.session →
        Collects name stopAfter (told ++ more) t'.session := by
  induction h with
  | refl =>
    refine ⟨[], by rwa [List.append_nil], fun name _ stopAfter told hc => ?_⟩
    rwa [List.append_nil]
  | tail hturns hturn ih =>
    have hv' := Turns.valid hturns hv
    have hs' := Turns.signalled hturns hv.accounted hs
    obtain ⟨later, hlater⟩ := hturn.signals
    rw [hlater] at hknown
    have hknown' := fun p hp => hknown p (List.mem_append_left later hp)
    obtain ⟨more, hh', hcollects⟩ := ih hknown'
    obtain ⟨cause, hp⟩ := hturn.pace hv' hs'
    refine ⟨more ++ cause.toList, ?_, fun name hnot stopAfter told hc => ?_⟩
    · rw [← List.append_assoc]
      exact hh'.pace hp hturn hv' hs' (hlast.trans (Turns.lastSerial_le hturns)) hknown'
    · rw [← List.append_assoc]
      exact hp.collects hv' (Turns.attended hturns hv ha) hnot
        (hcollects name hnot stopAfter told hc)

end turns

/-! ## Steps -/

namespace Run

/-- The cause of the session that a step ends, by a disconnect or by its own signal. -/
def ended (r : Run) (st : Step) : Option Cause :=
  if (r.next st).session.cycle.number = r.session.cycle.number then none
  else r.session.installed.bind fun x =>
    match st with
    | .disconnect => some .cancelled
    | _ => (r.next st).signalOf x

/-- The causes of the sessions that end in some steps, in order. -/
def endings (r : Run) : List Step → List Cause
  | [] => []
  | st :: steps => (r.ended st).toList ++ (r.next st).endings steps

end Run

section rest

variable {r : Run} {st : Step} {name : String} {stopAfter : Option Nat} {told : List Cause}

theorem Run.ended_eq_some_iff {cause : Cause} :
    r.ended st = some cause ↔
      ∃ x, r.session.installed = some x ∧ EndsIn r st x (some cause) := by
  unfold Run.ended
  constructor
  · intro h
    split at h
    · cases h
    · rename_i hnumber
      obtain ⟨x, hi, hwhy⟩ := Option.bind_eq_some_iff.mp h
      refine ⟨x, hi, ?_⟩
      split at hwhy
      · rw [← Option.some.inj hwhy]
        exact .disconnected rfl hnumber
      · rename_i hst
        exact .signalled hst hnumber hwhy
  · rintro ⟨x, hi, he⟩
    cases he with
    | disconnected hst hnumber =>
      subst hst
      rw [if_neg hnumber, hi]
      rfl
    | signalled hst hnumber hknown =>
      rw [if_neg hnumber, hi, Option.bind_some]
      split
      · exact absurd rfl hst
      · exact hknown

theorem connect_of_connected {s : Session} (hc : s.isConnected = true) (call : Nat)
    (options : Options) : (s.connect call options).1.isConnected = true ∧
      (s.connect call options).1.trail = s.trail := by
  have hkeeps : ∀ {s' : Session}, s'.installed = s.installed → s'.isConnected = true := by
    intro s' hi
    rw [isConnected_iff, hi]
    exact isConnected_iff.mp hc
  unfold connect
  cases options.validate with
  | error e => exact ⟨hc, rfl⟩
  | ok _ =>
    rcases establish_cases s with ⟨s₁, e, hest, hl, ht, -⟩ | ⟨s₁, hest, hl, ht, -⟩
    · rw [hest]
      exact ⟨hkeeps (congrArg Life.installed hl), ht⟩
    · have hc₁ := hkeeps (congrArg Life.installed hl)
      have hinstall : s₁.install (s.life.lastSerial + 1) = (s₁, false) := if_pos hc₁
      rw [hest]
      dsimp only
      rw [hinstall]
      exact ⟨hc₁, ht⟩

theorem connectAll_of_connected {s : Session} (hc : s.isConnected = true) (call : Nat)
    (options : Options) (n : Nat) : (s.connectAll call options n).1.trail = s.trail := by
  induction n generalizing s with
  | zero => rfl
  | succ n ih =>
    obtain ⟨hc₁, ht⟩ := connect_of_connected hc call options
    rw [connectAll_succ]
    exact (ih hc₁).trans ht

/-- Connects end nothing, whether they are rejected or begin a cycle. -/
theorem Run.ended_of_connects (hst : st.Connects) : r.ended st = none := by
  rw [Run.ended]
  cases hi : r.session.installed with
  | none => exact ite_self none
  | some x =>
    have hc : r.session.isConnected = true := by
      rw [isConnected_iff, hi]
      exact nofun
    have hact : (st.act r.session r.steps.length r.handles).session.trail = r.session.trail := by
      cases st with
      | connect options =>
        rw [Step.act, byHolder]
        split
        · exact (connect_of_connected hc _ _).2
        · rfl
      | race n options =>
        rw [Step.act, byHolder]
        split
        · exact connectAll_of_connected hc _ _ n
        · rfl
      | _ => exact hst.elim
    exact if_pos (congrArg Trail.number hact)

/-- What observers were told in a step is the cause of the session that it ended. -/
theorem Heard.eq_ended (hh : Heard st r.scene (r.played st) told) :
    told = (r.ended st).toList := by
  cases hh with
  | nothing _ hnumber _ =>
    have hsame : (r.next st).session.cycle.number = r.session.cycle.number := hnumber
    rw [Run.ended, if_pos hsame]
    rfl
  | joined _ hnone _ =>
    have hnone' : r.session.installed = none := hnone
    rw [Run.ended, hnone']
    split <;> rfl
  | ended hi hnumber hwhy _ =>
    have hne : (r.next st).session.cycle.number ≠ r.session.cycle.number := Nat.ne_of_gt hnumber
    rw [Run.ended_eq_some_iff.mpr ⟨_, hi, ?_⟩]
    · rfl
    · rcases hwhy with ⟨hst, rfl⟩ | ⟨hst, hknown⟩
      · exact .disconnected hst hne
      · exact .signalled hst hne hknown

theorem Run.AtRest.known (hr : r.AtRest) (st : Step) :
    ∀ p ∈ (r.played st).signals, p.1 ≤ r.session.life.lastSerial := by
  intro p hp
  rcases List.mem_append.mp hp with hp | hp
  · exact hr.signalled.bounded p hp
  · obtain ⟨-, hlatest⟩ := Step.signal_spec (Option.mem_toList.mp hp)
    have hi := hr.valid.accounted.pending _ (mem_pending_of_takeLatest hlatest)
    exact (hr.valid.accounted.serial _ hi).2

theorem Run.AtRest.heard (hr : r.AtRest) (ha : Attended r.handles [] r.session.trail) (st : Step)
    (hholder : st = .disconnect → r.session.hasHandle = true) :
    ∃ more, Heard st r.scene (r.played st) more ∧ ∀ name, ¬ st.Stops name → ∀ stopAfter told,
      Collects name stopAfter told r.session →
      Collects name stopAfter (told ++ more) (r.played st).session := by
  have hv := hr.valid.append [st]
  have hknown := hr.known st
  by_cases hst : st = .disconnect ∧ ∃ x, r.session.installed = some x
  · -- A disconnect ends the session before anything else can.
    obtain ⟨rfl, x, hi⟩ := hst
    rw [Run.played_disconnect, if_pos (hholder rfl)] at hknown ⊢
    obtain ⟨s, hleave, hlife, htrail, hturns, -⟩ :=
      disconnect_leaves hv rfl (Eq.refl Step.disconnect) r.steps.length hi
    have hrel := hv.not_released_of_installed hi
    have hnone : s.installed = none := congrArg Life.installed hlife
    have hpace : Pace .disconnect r.scene (r.scene.on s) (some .cancelled) :=
      .ends hrel hi (Or.inl ⟨rfl, rfl⟩) hnone rfl htrail
    have hbegin : Heard .disconnect r.scene (r.scene.on s) [.cancelled] := by
      refine .ended hi ?_ (Or.inl ⟨rfl, rfl⟩) fun y hy => ?_
      · show _ < s.trail.number
        rw [number_turnCycle hv.orderly hrel rfl htrail]
        exact Nat.lt_succ_self _
      · rw [show (r.scene.on s).session.installed = none from hnone] at hy
        cases hy
    obtain ⟨more, hh, hcollects⟩ := Turns.heard hturns (hleave.valid hv)
      (hleave.signalled hv.accounted hr.signalled) (hleave.attended hv ha) hbegin
      hleave.lastSerial_le hknown
    refine ⟨_, hh, fun name hnot stopAfter told hc => ?_⟩
    rw [← List.append_assoc]
    exact hcollects name hnot stopAfter _ (hpace.collects hv ha hnot hc)
  · refine (hr.goes st).turns.heard hv hr.signalled ha (.nothing (fun h => ?_) rfl (Or.inl rfl))
      (Nat.le_refl _) hknown
    cases hi : r.session.installed with
    | none => exact hi
    | some x => exact absurd ⟨h, x, hi⟩ hst

/-- **A step tells an observer the cause of the session that it ends**, which is not installed any
more, and nothing else. -/
theorem Run.AtRest.tells (hr : r.AtRest) (ha : Attended r.handles [] r.session.trail) (st : Step) :
    (∀ cause, r.ended st = some cause →
        (r.next st).session.installed ≠ r.session.installed) ∧
      ∀ name, ¬ st.Stops name → ∀ stopAfter told, Collects name stopAfter told r.session →
        Collects name stopAfter (told ++ (r.ended st).toList) (r.next st).session := by
  by_cases hidle : st = .disconnect ∧ r.session.hasHandle = false
  · obtain ⟨rfl, hno⟩ := hidle
    have hsame := Run.session_next_disconnect hno
    have hnone : r.ended .disconnect = none := by
      rw [Run.ended, if_pos]
      rw [hsame]
      rfl
    rw [hnone, Option.toList_none]
    refine ⟨fun _ h => (nomatch h), fun name _ stopAfter told hc => ?_⟩
    rw [List.append_nil]
    exact hc.congr (by rw [hsame]; rfl)
  · have hholder : st = .disconnect → r.session.hasHandle = true := by
      intro h
      by_contra hno
      exact hidle ⟨h, Bool.eq_false_iff.mpr hno⟩
    obtain ⟨more, hh, hcollects⟩ := hr.heard ha st hholder
    have hmore := hh.eq_ended
    refine ⟨fun cause h => ?_, fun name hnot stopAfter told hc => ?_⟩
    · rw [h] at hmore
      cases hh with
      | nothing _ _ _ => cases hmore
      | joined _ _ _ => cases hmore
      | ended hi _ _ hlater =>
        intro hsame
        have hlt := (hlater _ (hsame.trans hi)).1
        exact absurd (hr.valid.accounted.serial _ hi).2 (Nat.not_le.mpr hlt)
    · rw [← hmore]
      exact (hcollects name hnot stopAfter told hc).congr rfl

/-- **Some steps tell an observer what ends in them, in order.** -/
theorem Run.AtRest.collects_extend (hr : r.AtRest) (ha : Attended r.handles [] r.session.trail)
    {steps : List Step} (hnot : ∀ st ∈ steps, ¬ st.Stops name)
    (hc : Collects name stopAfter told r.session) :
    Collects name stopAfter (told ++ r.endings steps) (r.extend steps).session := by
  induction steps generalizing r told with
  | nil =>
    rw [Run.endings, List.append_nil]
    exact hc
  | cons st steps ih =>
    rw [Run.endings, ← List.append_assoc]
    exact ih (hr.next st) (hr.attended_next ha st)
      (fun st' h => hnot st' (List.mem_cons_of_mem _ h))
      ((hr.tells ha st).2 name (hnot st (List.mem_cons_self ..)) stopAfter told hc)

end rest

end Switchboard.Session
