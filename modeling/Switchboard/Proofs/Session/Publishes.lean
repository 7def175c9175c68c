import Switchboard.Proofs.Hub.Published
import Switchboard.Proofs.Session.Rest

/-!
# A cycle publishes one cause at most

**Spent** (`Trail.spent`). Whoever reads causes, subscribes to them or goes away publishes nothing.
Only the end of a cycle does, once, if it has a cause.

**The invariant** (`Unspent`). Nothing has been published in the current cycle, and one cause at
most in every other.
-/

namespace Switchboard

namespace Hub

variable {π ρ α : Type} {h h' : Hub π ρ α} {id : SubscriptionId} {caller : ρ}

/-- Where nothing is parked, all that was sent is published. -/
theorem Calm.published_eq (hl : h.Calm) (hl' : h'.Calm) (hs : h'.sent = h.sent) :
    h'.published = h.published := by
  have hleft : h.left = 0 := by rw [left, hl.idle]; rfl
  have hleft' : h'.left = 0 := by rw [left, hl'.idle]; rfl
  rwa [sent, sent, hleft, hleft'] at hs

theorem Use.published (use : Use) (hl : h.Calm) :
    (use.on h id caller).hub.published = h.published := by
  refine hl.published_eq (use.confined hl).calm ?_
  cases use with
  | receive => exact receive_sent hl.sound id caller
  | tryReceive => exact tryReceive_sent hl.sound id
  | drain => exact drainUpTo_sent id _ [] ⟨h, (), [], []⟩ hl.sound
  | cancel => exact cancel_sent hl.sound id
  | abandon => exact abandon_sent hl.sound id

theorem published_subscribe (h : Hub π ρ α) (n : Nat) :
    (h.subscribe n).1.published = h.published := by
  unfold subscribe
  split <;> rfl

theorem published_subscribeWaiting (h : Hub π ρ α) (n : Nat) (caller : ρ) :
    (h.subscribeWaiting n caller).1.published = h.published := by
  unfold subscribeWaiting
  split <;> rfl

theorem Sound.published_close (hs : h.Sound) : h.close.hub.published = h.published := by
  have hsent := close_sent hs
  have hleft := left_of_closed (h.close_moves.turns.sound hs) h.close_closed
  rw [sent, sent, hleft] at hsent
  omega

end Hub

namespace Session

open Hub (Use)

/-- The number of values published in a cycle. -/
def Trail.spent (t : Trail) (k : Nat) : Option Nat := (t.hub? k).map (·.published)

/-- Nothing has been published in the current cycle, and one value at most in every other. -/
structure Unspent (t : Trail) : Prop where
  current : t.spent t.number = some 0
  once : ∀ k n, t.spent k = some n → n ≤ 1

section spent

variable {owner : Nat → Option CauseHandle} {handles : List CauseHandle} {t : Trail} {s : Session}
  {k : Nat} {h h' : Hub Unit CauseReader Cause}

theorem Trail.spent_setHub (hk : t.hub? k = some h) (hp : h'.published = h.published) :
    (t.setHub k h').spent = t.spent := by
  funext j
  show (if j = k then some h' else t.hub? j).map (·.published) = (t.hub? j).map (·.published)
  split
  · rename_i hj
    rw [hj, hk]
    exact congrArg some hp
  · rfl

/-! ## Readers -/

theorem spent_leaveCycle (ho : Orderly owner handles s.trail) (number : Nat) (id : SubscriptionId) :
    (s.leaveCycle number id).trail.spent = s.trail.spent := by
  rw [trail_leaveCycle]
  cases hk : s.trail.hub? number with
  | none => rfl
  | some h =>
    have hl := ho.calm _ h hk
    have hc : Hub.Confined (CauseReader.call 0) id [] h _ _ := hl.confined_abandon
    exact Trail.spent_setHub hk (hl.published_eq hc.calm (Hub.abandon_sent hl.sound id))

theorem spent_unsubscribed (ho : Orderly owner handles s.trail) (o : Observer) :
    (s.unsubscribed o).trail.spent = s.trail.spent := by
  unfold unsubscribed
  split
  · exact spent_leaveCycle ho _ _
  · rfl

theorem spent_subscribeObserver (s : Session) (o : Observer) :
    (s.subscribeObserver o).trail.spent = s.trail.spent := by
  rw [trail_subscribeObserver]
  exact Trail.spent_setHub trail_hub?_number (Hub.published_subscribeWaiting _ _ _)

theorem spent_observe (ho : Orderly owner handles s.trail) (name : String) (cause : Option Cause) :
    (s.observe name cause).trail.spent = s.trail.spent := by
  cases hfind : s.observer? name with
  | none => rw [observe, hfind]
  | some o =>
    have hobserve : s.observe name cause = _ := observe_of_some hfind cause
    rw [hobserve]
    split
    · exact spent_unsubscribed ho o
    · exact (spent_subscribeObserver _ _).trans (spent_unsubscribed ho o)

theorem spent_readCauses (ho : Orderly owner handles s.trail) (hrel : s.released = false)
    (received : List (CauseReader × Option Cause)) :
    (s.readCauses received).trail.spent = s.trail.spent := by
  induction received generalizing s with
  | nil => rfl
  | cons r rest ih =>
    obtain ⟨call | name, cause⟩ := r
    · have hstep := trail_complete_cause s call cause
      have ho₁ : Orderly owner handles (s.complete (.cause call cause)).trail := by
        rw [hstep]
        exact ho.answered _
      refine (ih ho₁ hrel).trans ?_
      rw [hstep]
      rfl
    · obtain ⟨ho₁, hstirs, -⟩ := observe_spec ho hrel name cause
      exact (ih ho₁ (hstirs.released.trans hrel)).trans (spent_observe ho name cause)

/-! ## The end of a cycle -/

/-- The end of a cycle publishes its cause. -/
theorem published_endCycle (ho : Orderly owner handles s.trail) (hrel : s.released = false)
    (cause : Option Cause) :
    (endCycle s.cycle cause).1.disconnects.published =
      s.cycle.disconnects.published + cause.toList.length := by
  have hk := trail_hub?_number (s := s)
  have hl := ho.calm _ _ hk
  have hc := (ho.closed _ _ hk).mpr ⟨rfl, hrel⟩
  have hfresh : ∀ id p, s.cycle.disconnects.pipeline? id = some p → p.unread = [] :=
    fun id p hp => ho.fresh id p ((Trail.slot_of_hub hk id).trans hp)
  cases cause with
  | none => exact hl.sound.published_close
  | some cause =>
    obtain ⟨-, hhub, -⟩ := hl.publish_fresh hc hfresh () cause
    have hsound := (s.cycle.disconnects.publishAll_turns () [] [cause]).sound hl.sound
    have hpublish : (s.cycle.disconnects.publish () cause).hub.published =
        s.cycle.disconnects.published + 1 := by rw [hhub]
    exact hsound.published_close.trans hpublish

theorem spent_turn (t : Trail) (h : Hub Unit CauseReader Cause) (k : Nat) :
    (t.turn h).spent k = if k = t.number + 1 then some 0
      else if k = t.number then some h.published else t.spent k := by
  show Option.map _ (if k = t.number + 1 then _ else if k = t.number then _ else _) = _
  split
  · rfl
  · split <;> rfl

theorem spent_turnCycle (ho : Orderly owner handles s.trail) (hrel : s.released = false)
    (cause : Option Cause) (active : Option Active) :
    (s.turnCycle cause active).trail.number = s.trail.number + 1 ∧
      ∀ k, (s.turnCycle cause active).trail.spent k = if k = s.trail.number + 1 then some 0
        else if k = s.trail.number then
          some (s.cycle.disconnects.published + cause.toList.length)
        else s.trail.spent k := by
  obtain ⟨h, hend, hended⟩ := ho.exists_ended hrel cause
  obtain ⟨s', htrail, hturn⟩ := trail_turnCycle hend active
  have ho' : Orderly owner handles s'.trail := by
    rw [htrail]
    exact ho.turn trail_hub?_number hrel hended
  have hrel' : s'.released = false := (congrArg Trail.released htrail).trans hrel
  obtain ⟨-, hstirs, -⟩ :=
    readCauses_spec ho' hrel' (s.cycle.disconnects.waiters.map (·, cause))
  have hpublished := published_endCycle ho hrel cause
  rw [hend] at hpublished
  refine ⟨?_, fun k => ?_⟩
  · rw [hturn, hstirs.number, htrail]
    rfl
  · rw [hturn, spent_readCauses ho' hrel', htrail, spent_turn, ← hpublished]

theorem Unspent.published (hu : Unspent s.trail) : s.cycle.disconnects.published = 0 := by
  have hcurrent := hu.current
  rw [Trail.spent, trail_hub?_number, Option.map_some, Option.some.injEq] at hcurrent
  exact hcurrent

theorem Unspent.turnCycle (hu : Unspent s.trail) (ho : Orderly owner handles s.trail)
    (hrel : s.released = false) (cause : Option Cause) (active : Option Active) :
    Unspent (s.turnCycle cause active).trail := by
  obtain ⟨hnumber, hspent⟩ := spent_turnCycle ho hrel cause active
  refine ⟨?_, fun k n hk => ?_⟩
  · rw [hspent, hnumber, if_pos rfl]
  · rw [hspent, hu.published, Nat.zero_add] at hk
    split at hk
    · rw [← Option.some.inj hk]
      exact Nat.zero_le 1
    · split at hk
      · rw [← Option.some.inj hk]
        cases cause <;> simp
      · exact hu.once k n hk

/-- The last cycle ends without a cause. -/
theorem spent_release (ho : Orderly owner handles s.trail) (hrel : s.released = false)
    (hidle : ∀ o ∈ s.observers, o.subscription = none) :
    s.release.trail.spent = s.trail.spent := by
  obtain ⟨h, hend, -⟩ := ho.exists_ended hrel none
  obtain ⟨s', htrail, hrelease⟩ := trail_release hend
  rw [trail_readCauses_calls _ fun r hr name =>
    ho.not_waiting (fun o hmem _ => hidle o hmem) none r hr, htrail] at hrelease
  have hpublished := published_endCycle ho hrel none
  rw [hend] at hpublished
  rw [hrelease]
  exact Trail.spent_setHub trail_hub?_number hpublished

/-! ## Turns -/

/-- **Every turn keeps the cycles unspent.** -/
theorem Turn.unspent {step : Step} {t t' : Scene} (h : Turn step owner t t') (hv : Valid owner t)
    (hu : Unspent t.session.trail) : Unspent t'.session.trail := by
  have ho := hv.orderly
  have hsame : ∀ {s : Session}, s.trail.number = t.session.trail.number →
      s.trail.spent = t.session.trail.spent → Unspent s.trail := by
    intro s hnumber hspent
    exact ⟨by rw [hnumber, hspent]; exact hu.current, by rw [hspent]; exact hu.once⟩
  have htrail : ∀ {s : Session}, s.trail = t.session.trail → Unspent s.trail := by
    intro s h
    rw [h]
    exact hu
  -- The turn of a cycle spends its hub and begins another with an unspent one.
  have hturn : ∀ {s s₀ : Session} {cause : Option Cause} {active : Option Active},
      t.session.released = false → s₀.trail = t.session.trail →
      s.trail = (s₀.turnCycle cause active).trail → Unspent s.trail := by
    intro s s₀ cause active hrel ht₀ ht
    rw [← ht₀] at hu ho
    rw [ht]
    exact hu.turnCycle ho ((congrArg Trail.released ht₀).trans hrel) cause active
  cases h with
  | aside _ ht => exact htrail ht
  | letGo _ _ _ ht => exact htrail ht
  | mail _ _ ht => exact htrail ht
  | reject _ ht => exact htrail ht
  | signal _ _ ht => exact htrail ht
  | gather _ => exact hu
  | stale _ _ => exact hu
  | join _ hh _ _ _ ht₀ ht => exact hturn (hv.not_released_of_handle hh) ht₀ ht
  | leave _ hi _ ht₀ ht => exact hturn (hv.not_released_of_installed hi) ht₀ ht
  | watch _ _ hi _ ht₀ ht => exact hturn (hv.not_released_of_installed hi) ht₀ ht
  | release _ hrel hh =>
    obtain ⟨h', -, -, hstirs, -⟩ := release_spec ho hrel (idle_of_not_isHeld hh)
    exact hsame hstirs.number (spent_release ho hrel (idle_of_not_isHeld hh))
  | @causes handle use call c _ hH _ hcycle =>
    have hk := trail_hub?_of_cycle? hcycle
    have htrail := trail_causes ho hH call hcycle use
    refine hsame ?_ ?_
    · rw [htrail]
      rfl
    · rw [htrail]
      exact Trail.spent_setHub hk (use.published (ho.calm _ _ hk))
  | follow n hh =>
    refine hsame rfl ?_
    rw [trail_subscribeCauses]
    exact Trail.spent_setHub trail_hub?_number (Hub.published_subscribe _ _)
  | @stop o number id _ _ _ =>
    refine hsame ?_ (spent_leaveCycle ho number id)
    show (t.session.leaveCycle number id).trail.number = _
    rw [trail_leaveCycle]
    split <;> rfl
  | forget _ _ _ => exact hsame rfl rfl
  | enroll _ _ _ _ => exact hsame rfl (spent_subscribeObserver _ _)

theorem Turns.unspent {step : Step} {t t' : Scene} (h : Turns step owner t t') (hv : Valid owner t)
    (hu : Unspent t.session.trail) : Unspent t'.session.trail := by
  induction h with
  | refl => exact hu
  | tail hturns hturn ih => exact hturn.unspent (Turns.valid hturns hv) ih

end spent

/-! ## Runs -/

/-- **Between two steps of a run the cycles are unspent.** -/
theorem run_unspent (settings : Settings) (players : List Player) (catalog : List Packet.Entry)
    (steps : List Step) : Unspent (run settings players catalog steps).session.trail := by
  induction steps using List.reverseRecOn with
  | nil =>
    refine ⟨rfl, fun k n hk => ?_⟩
    obtain ⟨h, hhub, rfl⟩ := Option.map_eq_some_iff.mp hk
    obtain ⟨c, hc, rfl⟩ := Option.map_eq_some_iff.mp hhub
    have hc' : (if 0 = k then some (freshCycle settings 0) else none) = some c := hc
    split at hc'
    · rw [← Option.some.inj hc']
      exact Nat.zero_le 1
    · cases hc'
  | append_singleton steps st ih =>
    have hr := run_atRest settings players catalog steps
    have hu := (hr.goes st).turns.unspent (hr.valid.append [st]) ih
    rw [run_append]
    exact ⟨hu.current, hu.once⟩

end Session

end Switchboard
