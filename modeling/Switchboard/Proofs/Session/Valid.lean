import Switchboard.Proofs.Session.Connections
import Switchboard.Proofs.Session.Readers

/-!
# Valid scenes

Every connection is accounted for and the cycles are in order, before and after every turn.
-/

namespace Switchboard.Session

open Hub (Use Confined)

/-- What holds of a scene between two turns. -/
structure Valid (owner : Nat → Option CauseHandle) (t : Scene) : Prop where
  accounted : Accounted t.ready t.session.life
  orderly : Orderly owner t.handles t.session.trail

section valid

variable {step : Step} {owner : Nat → Option CauseHandle} {t t' : Scene}

theorem Valid.not_released_of_handle (hv : Valid owner t) (hh : t.session.hasHandle = true) :
    t.session.released = false := by
  refine Bool.eq_false_iff.mpr fun hrel => ?_
  have hnone : t.session.hasHandle = false := (hv.accounted.gone hrel).2
  rw [hh] at hnone
  cases hnone

theorem Valid.not_released_of_installed (hv : Valid owner t) {x : Serial}
    (hi : t.session.installed = some x) : t.session.released = false := by
  refine Bool.eq_false_iff.mpr fun hrel => ?_
  have hnone : t.session.installed = none := (hv.accounted.gone hrel).1
  rw [hi] at hnone
  cases hnone

theorem Valid.installed_eq_none (hv : Valid owner t) (hrel : t.session.released = true) :
    t.session.installed = none :=
  (hv.accounted.gone hrel).1

theorem idle_of_not_isHeld {s : Session} (h : s.isHeld = false) :
    ∀ o ∈ s.observers, o.subscription = none := by
  intro o ho
  rw [isHeld, Bool.or_eq_false_iff, Bool.or_eq_false_iff] at h
  have hrun := List.any_eq_false.mp h.1.2 o ho
  rw [Observer.isRunning, Bool.not_eq_true, Option.isSome_eq_false_iff, Option.isNone_iff_eq_none]
    at hrun
  exact hrun

theorem Orderly.received_calls {handles : List CauseHandle} {tr : Trail}
    (ho : Orderly owner handles tr) {H : CauseHandle} (hH : H ∈ handles)
    {h h' : Hub Unit CauseReader Cause} (hk : tr.hub? H.cycle = some h) {caller : CauseReader}
    {taken : List Cause} {received : List (CauseReader × Option Cause)}
    (hc : Confined caller H.id taken h h' received) :
    ∀ r ∈ received, ∀ name, r.1 ≠ .observer name := by
  intro r hr name heq
  obtain ⟨-, p, hp, hrec⟩ := hc.received r hr
  rw [heq] at hrec
  obtain ⟨o, hmem, -, hsub⟩ := ho.reads H.cycle H.id p _ ((Trail.slot_of_hub hk _).trans hp) hrec
  exact ho.apart H hH o hmem hsub

/-! ## What is done to the cycles -/

section cycles

variable {handles : List CauseHandle} {s : Session}

theorem trail_causes (ho : Orderly owner handles s.trail) {handle : CauseHandle}
    (hH : handle ∈ handles) (call : Nat) {c : Cycle} (hcycle : s.cycle? handle.cycle = some c)
    (use : Use) :
    let reply := use.on c.disconnects handle.id (.call call)
    ((s.setCycle { c with disconnects := reply.hub }).readCauses reply.received).trail =
      (s.trail.setHub handle.cycle reply.hub).answer (reply.received.filterMap callOf) := by
  intro reply
  have hk := trail_hub?_of_cycle? hcycle
  have hc : Confined (.call call) handle.id _ c.disconnects _ _ := use.confined (ho.calm _ _ hk)
  rw [trail_readCauses_calls _ (ho.received_calls hH hk hc), trail_setCycle hcycle]

theorem causes_spec (ho : Orderly owner handles s.trail) {handle : CauseHandle}
    (hH : handle ∈ handles) {call : Nat} (howner : owner call = some handle) {c : Cycle}
    (hcycle : s.cycle? handle.cycle = some c) (use : Use) :
    let reply := use.on c.disconnects handle.id (.call call)
    let s' := (s.setCycle { c with disconnects := reply.hub }).readCauses reply.received
    Orderly owner handles s'.trail ∧
      Stirs handles ((s.trail.setHub handle.cycle reply.hub).answer
        (reply.received.filterMap callOf)) s'.trail ∧
      ∀ name, Stopped name s.trail → Stopped name s'.trail := by
  intro reply s'
  have hk := trail_hub?_of_cycle? hcycle
  have hc : Confined (.call call) handle.id _ c.disconnects _ _ := use.confined (ho.calm _ _ hk)
  rw [show s'.trail = _ from trail_causes ho hH call hcycle use]
  exact ⟨(ho.confined hk hc (Or.inr ⟨howner, hH⟩)).answered _, .refl _ _, fun _ hs => hs⟩

/-- A handle for the cause of the current cycle is the next subscription of its hub. -/
theorem subscribeCauses_spec (ho : Orderly owner handles s.trail) (hrel : s.released = false)
    (n : Nat) :
    (s.subscribeCauses n).2 = ⟨s.cycle.number, s.cycle.disconnects.lastId + 1⟩ ∧
      (s.subscribeCauses n).1.trail =
        s.trail.setHub s.trail.number (s.cycle.disconnects.register (.new n)).1 := by
  have hc := (ho.closed _ _ (trail_hub?_number (s := s))).mpr ⟨rfl, hrel⟩
  have hsub : s.cycle.disconnects.subscribe n = s.cycle.disconnects.register (.new n) :=
    if_neg (by simp [hc])
  constructor
  · rw [subscribeCauses, hsub]
    rfl
  · rw [trail_subscribeCauses, hsub]

theorem follow_spec (ho : Orderly owner handles s.trail) (hrel : s.released = false) (n : Nat) :
    Orderly owner (handles ++ [(s.subscribeCauses n).2]) (s.subscribeCauses n).1.trail ∧
      Stirs handles s.trail (s.subscribeCauses n).1.trail ∧
      ∀ name, Stopped name s.trail → Stopped name (s.subscribeCauses n).1.trail := by
  have hk := trail_hub?_number (s := s)
  have hc := (ho.closed _ _ hk).mpr ⟨rfl, hrel⟩
  obtain ⟨hgiven, htrail⟩ := subscribeCauses_spec ho hrel n
  rw [htrail, hgiven]
  refine ⟨(ho.register hk hc n).give ⟨_, Trail.hub?_setHub_self, Nat.le_refl _⟩
    (ho.apart_next hk).1, ⟨rfl, rfl, rfl, fun H hH => ?_⟩, fun _ hs => hs⟩
  rw [slot_register hk (ho.calm _ _ hk).sound, if_neg]
  rintro ⟨hcycle, hid⟩
  exact (ho.apart_next hk).2 H hH (by rw [hcycle, hid])

theorem stop_spec (ho : Orderly owner handles s.trail) {o : Observer} {number : Nat}
    {id : SubscriptionId} (hfind : s.observer? o.name = some o)
    (hsub : o.subscription = some (number, id)) :
    let s' := (s.leaveCycle number id).setObserver { o with subscription := none }
    Orderly owner handles s'.trail ∧ Stirs handles s.trail s'.trail ∧
      ∀ name, Stopped name s.trail → Stopped name s'.trail := by
  intro s'
  obtain ⟨hmem, -⟩ := mem_of_observer? hfind
  obtain ⟨ho₁, hstirs, hobs, hu⟩ := unsubscribed_spec ho hmem
  rw [show s.unsubscribed o = s.leaveCycle number id by rw [unsubscribed, hsub]]
    at ho₁ hstirs hobs hu
  refine ⟨ho₁.setObserver hu fun k i h => (nomatch h),
    ⟨hstirs.number, hstirs.released, hstirs.answered, hstirs.slot⟩, fun name hs => ?_⟩
  have hs₁ : Stopped name (s.leaveCycle number id).trail := by
    intro p hp
    rw [hobs] at hp
    exact hs p hp
  exact hs₁.setObserver fun _ => rfl

end cycles

/-! ## Turns -/

/-- **Every turn keeps the cycles in order**, and an observer that has stopped is not started by
anything but a start. -/
theorem Turn.orderly (h : Turn step owner t t') (hv : Valid owner t) :
    Orderly owner t'.handles t'.session.trail ∧
      ∀ name, (∀ stopAfter, step ≠ .startObserver name stopAfter) →
        Stopped name t.session.trail → Stopped name t'.session.trail := by
  have ho := hv.orderly
  have hsame : ∀ {s : Session}, s.trail = t.session.trail →
      Orderly owner t.handles s.trail ∧ ∀ name, (∀ a, step ≠ .startObserver name a) →
        Stopped name t.session.trail → Stopped name s.trail := by
    intro s htrail
    rw [htrail]
    exact ⟨ho, fun _ _ hs => hs⟩
  have hturn : ∀ {s s₀ : Session} {cause : Option Cause} {active : Option Active},
      t.session.released = false → s₀.trail = t.session.trail →
      s.trail = (s₀.turnCycle cause active).trail →
      Orderly owner t.handles s.trail ∧ ∀ name, (∀ a, step ≠ .startObserver name a) →
        Stopped name t.session.trail → Stopped name s.trail := by
    intro s s₀ cause active hrel htrail₀ htrail
    rw [← htrail₀] at ho
    obtain ⟨-, -, ho', -, hstop⟩ :=
      turnCycle_spec ho ((congrArg Trail.released htrail₀).trans hrel) cause active
    rw [htrail, ← htrail₀]
    exact ⟨ho', fun name _ => hstop name⟩
  cases h with
  | aside _ htrail => exact hsame htrail
  | letGo _ _ _ htrail => exact hsame htrail
  | mail _ _ htrail => exact hsame htrail
  | reject _ htrail => exact hsame htrail
  | signal _ _ htrail => exact hsame htrail
  | gather _ => exact hsame (s := { t.session with watches := _ }) rfl
  | stale _ _ => exact hsame rfl
  | join _ hh _ _ _ htrail₀ htrail => exact hturn (hv.not_released_of_handle hh) htrail₀ htrail
  | leave _ hi _ htrail₀ htrail => exact hturn (hv.not_released_of_installed hi) htrail₀ htrail
  | watch _ _ hi _ htrail₀ htrail => exact hturn (hv.not_released_of_installed hi) htrail₀ htrail
  | release _ hrel hh =>
    obtain ⟨-, -, ho', -, hstop⟩ := release_spec ho hrel (idle_of_not_isHeld hh)
    exact ⟨ho', fun name _ _ => hstop name⟩
  | @causes handle use call c _ hH howner hcycle =>
    obtain ⟨ho', -, hstop⟩ := causes_spec ho hH howner hcycle use
    exact ⟨ho', fun name _ => hstop name⟩
  | follow n hh =>
    obtain ⟨ho', -, hstop⟩ := follow_spec ho (hv.not_released_of_handle hh) n
    exact ⟨ho', fun name _ => hstop name⟩
  | stop _ hfind hsub =>
    obtain ⟨ho', -, hstop⟩ := stop_spec ho hfind hsub
    exact ⟨ho', fun name _ => hstop name⟩
  | forget name _ hn =>
    exact ⟨ho.forget hn, fun name' _ hs p hp => hs p (List.mem_of_mem_filter hp)⟩
  | @enroll o hstep hh hnew hs =>
    refine ⟨(enroll_spec ho (hv.not_released_of_handle hh) hnew hs).1, fun name hne hstopped => ?_⟩
    show Stopped name (trail (subscribeObserver ..))
    rw [trail_subscribeObserver]
    refine Stopped.setObserver (fun p hp hn => ?_) fun hn => ?_
    · rcases List.mem_append.mp hp with hp | hp
      · exact hstopped p hp hn
      · rw [List.mem_singleton.mp hp]
        exact hs
    · exact absurd hstep (hn ▸ hne _)

theorem Turn.valid (h : Turn step owner t t') (hv : Valid owner t) : Valid owner t' :=
  ⟨h.accounted hv.accounted, (h.orderly hv).1⟩

theorem Turns.valid (h : Turns step owner t t') (hv : Valid owner t) : Valid owner t' := by
  induction h with
  | refl => exact hv
  | tail _ hturn ih => exact hturn.valid ih

/-- Only those who let go do not hold the state afterwards. -/
theorem Turn.hasHandle (h : Turn step owner t t') (hne : step ≠ .disown)
    (hne' : ∀ name, step ≠ .dropClone name) : t'.session.hasHandle = t.session.hasHandle := by
  have hlife : ∀ {l : Life}, t'.session.life = l → l.hasHandle = t.session.hasHandle →
      t'.session.hasHandle = t.session.hasHandle :=
    fun hl hh => (congrArg Life.hasHandle hl).trans hh
  cases h with
  | aside hl _ => exact hlife hl rfl
  | letGo hstep _ _ _ =>
    rcases hstep with hstep | ⟨name, hstep⟩
    · exact absurd hstep hne
    · exact absurd hstep (hne' name)
  | mail _ hl _ => exact hlife (hl.trans (foldl_start _ _)) rfl
  | reject hl _ => exact hlife hl rfl
  | join _ _ _ _ hl _ _ => exact hlife (hl.trans (foldl_start _ _)) rfl
  | signal _ hl _ => exact hlife hl rfl
  | leave _ _ hl _ _ => exact hlife hl rfl
  | gather _ => rfl
  | watch _ _ _ hl _ _ => exact hlife hl rfl
  | stale _ _ => rfl
  | release _ _ _ =>
    refine hlife (life_release _) ?_
    unfold Life.release
    cases t.session.life.installed <;> rfl
  | causes _ _ _ _ => exact hlife ((life_readCauses _ _).trans (life_setCycle _ _)) rfl
  | follow _ _ => rfl
  | stop _ _ _ => exact hlife (life_leaveCycle _ _ _) rfl
  | forget _ _ _ => rfl
  | enroll _ _ _ _ => rfl

theorem Turns.hasHandle (h : Turns step owner t t') (hne : step ≠ .disown)
    (hne' : ∀ name, step ≠ .dropClone name) : t'.session.hasHandle = t.session.hasHandle := by
  induction h with
  | refl => rfl
  | tail _ hturn ih => exact (hturn.hasHandle hne hne').trans ih

theorem Turns.stopped (h : Turns step owner t t') (hv : Valid owner t) {name : String}
    (hstep : ∀ stopAfter, step ≠ .startObserver name stopAfter) (hs : Stopped name t.session.trail) :
    Stopped name t'.session.trail := by
  induction h with
  | refl => exact hs
  | tail hturns hturn ih => exact (hturn.orderly (Turns.valid hturns hv)).2 name hstep ih

end valid

end Switchboard.Session
