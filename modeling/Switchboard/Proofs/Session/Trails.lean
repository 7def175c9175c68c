import Switchboard.Proofs.Hub.Farewell
import Switchboard.Proofs.Session.Turns

/-!
# What happens to the trail

The operations on cycles and observers, one by one, as changes of the trail.

**Slots** (`slot`). A subscription to causes lies in the slot of its cycle and its name. A change of
one hub changes the slots of that cycle only.
-/

namespace Switchboard.Session

namespace Trail

/-- The pipeline behind a subscription to the causes of a cycle. -/
def slot (t : Trail) (number : Nat) (id : SubscriptionId) :
    Option (Pipeline (Publication Unit Cause) CauseReader Cause) :=
  (t.hub? number).bind (·.pipeline? id)

/-- Put a changed hub in its place. -/
def setHub (t : Trail) (number : Nat) (h : Hub Unit CauseReader Cause) : Trail :=
  { t with hub? := fun k => if k = number then some h else t.hub? k }

/-- Put a changed observer in its place. -/
def setObserver (t : Trail) (o : Observer) : Trail :=
  { t with observers := t.observers.map fun p => if p.name = o.name then o else p }

/-- Note the receives of causes that have returned. -/
def answer (t : Trail) (received : List (Nat × Option Cause)) : Trail :=
  { t with answered := t.answered ++ received }

/-- The end of the current cycle and the begin of the next. -/
def turn (t : Trail) (ended : Hub Unit CauseReader Cause) : Trail :=
  { t with
    number := t.number + 1
    hub? := fun k =>
      if k = t.number + 1 then some (freshCycle t.settings (t.number + 1)).disconnects
      else if k = t.number then some ended
      else t.hub? k }

variable {t : Trail} {k number : Nat} {id : SubscriptionId} {h : Hub Unit CauseReader Cause}

theorem slot_of_hub (hk : t.hub? k = some h) (id : SubscriptionId) :
    t.slot k id = h.pipeline? id := by
  rw [slot, hk]
  rfl

theorem slot_setHub (h : Hub Unit CauseReader Cause) (number k : Nat) (id : SubscriptionId) :
    (t.setHub number h).slot k id = if k = number then h.pipeline? id else t.slot k id := by
  unfold slot setHub
  dsimp only
  split <;> rfl

theorem slot_turn_self (t : Trail) (h : Hub Unit CauseReader Cause) (id : SubscriptionId) :
    (t.turn h).slot t.number id = h.pipeline? id := by
  have hub : (t.turn h).hub? t.number = some h :=
    (if_neg (Nat.ne_of_lt (Nat.lt_succ_self _))).trans (if_pos rfl)
  exact slot_of_hub hub id

theorem slot_turn_of_lt (hk : k < t.number) (h : Hub Unit CauseReader Cause) (id : SubscriptionId) :
    (t.turn h).slot k id = t.slot k id := by
  have hub : (t.turn h).hub? k = t.hub? k :=
    (if_neg (Nat.ne_of_lt (Nat.lt_succ_of_lt hk))).trans (if_neg (Nat.ne_of_lt hk))
  rw [slot, hub]
  rfl

theorem hub?_setHub_self : (t.setHub number h).hub? number = some h := if_pos rfl

theorem hub?_setHub_of_ne (hne : k ≠ number) : (t.setHub number h).hub? k = t.hub? k := if_neg hne

theorem hub?_setHub_cases {g : Hub Unit CauseReader Cause}
    (hg : (t.setHub number h).hub? k = some g) :
    k = number ∧ g = h ∨ k ≠ number ∧ t.hub? k = some g := by
  by_cases hk : k = number
  · subst hk
    exact Or.inl ⟨rfl, (Option.some.inj (hub?_setHub_self.symm.trans hg)).symm⟩
  · exact Or.inr ⟨hk, (hub?_setHub_of_ne hk).symm.trans hg⟩

/-- A subscription that was made stays a subscription that was made. -/
theorem exists_lastId_setHub {h' : Hub Unit CauseReader Cause} (hk : t.hub? number = some h)
    (hlast : h.lastId ≤ h'.lastId) (hid : ∃ g, t.hub? k = some g ∧ id ≤ g.lastId) :
    ∃ g, (t.setHub number h').hub? k = some g ∧ id ≤ g.lastId := by
  obtain ⟨g, hg, hid⟩ := hid
  by_cases hk' : k = number
  · subst hk'
    obtain rfl : h = g := Option.some.inj (hk.symm.trans hg)
    exact ⟨h', hub?_setHub_self, hid.trans hlast⟩
  · exact ⟨g, (hub?_setHub_of_ne hk').trans hg, hid⟩

end Trail

section trail

variable {s : Session}

theorem cycle?_number : s.cycle? s.cycle.number = some s.cycle := if_pos rfl

theorem trail_hub?_of_cycle? {k : Nat} {c : Cycle} (hc : s.cycle? k = some c) :
    s.trail.hub? k = some c.disconnects := by
  show (s.cycle? k).map _ = _
  rw [hc]
  rfl

theorem trail_hub?_number : s.trail.hub? s.trail.number = some s.cycle.disconnects :=
  trail_hub?_of_cycle? cycle?_number

theorem number_of_cycle? {k : Nat} {c : Cycle} (hc : s.cycle? k = some c) : c.number = k := by
  unfold cycle? at hc
  split at hc
  · rename_i hk
    rw [← Option.some.inj hc]
    exact hk
  · simpa using List.find?_some hc

theorem cycle?_setCycle (d : Cycle) (k : Nat) :
    (s.setCycle d).cycle? k =
      (s.cycle? k).map fun c => if c.number = d.number then d else c := by
  have hfind : ∀ past : List Cycle,
      (past.map fun c => if c.number = d.number then d else c).find? (·.number = k) =
        (past.find? (·.number = k)).map fun c => if c.number = d.number then d else c := by
    intro past
    rw [List.find?_map]
    refine congrArg _ (congrArg (past.find? ·) (funext fun c => ?_))
    by_cases hc : c.number = d.number
    · simp [hc]
    · simp [hc]
  by_cases hn : s.cycle.number = d.number
  · have hset : s.setCycle d = { s with cycle := d } := if_pos hn
    rw [hset, cycle?, cycle?]
    by_cases hk : d.number = k
    · rw [if_pos hk, if_pos (hn.trans hk), Option.map_some, if_pos hn]
    · rw [if_neg hk, if_neg fun h => hk (hn.symm.trans h)]
      cases hpast : s.past.find? (·.number = k) with
      | none => rfl
      | some c =>
        have hc : c.number = k := by simpa using List.find?_some hpast
        rw [Option.map_some, if_neg fun h => hk (h.symm.trans hc)]
  · have hset : s.setCycle d = { s with
        past := s.past.map fun c => if c.number = d.number then d else c } := if_neg hn
    rw [hset, cycle?, cycle?]
    by_cases hk : s.cycle.number = k
    · rw [if_pos hk, if_pos hk, Option.map_some, if_neg hn]
    · rw [if_neg hk, if_neg hk]
      exact hfind s.past

theorem trail_setCycle {k : Nat} {c : Cycle} (hc : s.cycle? k = some c)
    (h : Hub Unit CauseReader Cause) :
    (s.setCycle { c with disconnects := h }).trail = s.trail.setHub k h := by
  have hk := number_of_cycle? hc
  have hub : ∀ j, ((s.setCycle { c with disconnects := h }).cycle? j).map (·.disconnects) =
      if j = k then some h else (s.cycle? j).map (·.disconnects) := by
    intro j
    rw [cycle?_setCycle, Option.map_map]
    by_cases hj : j = k
    · subst hj
      rw [if_pos rfl, hc]
      simp
    · rw [if_neg hj]
      cases hd : s.cycle? j with
      | none => rfl
      | some d =>
        have hne : d.number ≠ c.number := by
          rw [number_of_cycle? hd, hk]
          exact hj
        simp [hne]
  have hrest : (s.setCycle { c with disconnects := h }).trail =
      { s.trail with
        hub? := fun j => ((s.setCycle { c with disconnects := h }).cycle? j).map (·.disconnects) } := by
    unfold setCycle
    split
    · rename_i hn
      have hn' : c.number = s.cycle.number := hn.symm
      simp only [trail, hn']
    · rfl
  rw [hrest, funext hub]
  rfl

theorem trail_leaveCycle (number : Nat) (id : SubscriptionId) :
    (s.leaveCycle number id).trail = match s.trail.hub? number with
      | none => s.trail
      | some h => s.trail.setHub number (h.abandon id).hub := by
  unfold leaveCycle
  cases hc : s.cycle? number with
  | none =>
    have hnone : s.trail.hub? number = none := by
      show (s.cycle? number).map _ = none
      rw [hc]
      rfl
    rw [hnone]
  | some c =>
    rw [trail_hub?_of_cycle? hc]
    exact trail_setCycle hc _

theorem trail_setCurrent (h : Hub Unit CauseReader Cause) :
    ({ s with cycle := { s.cycle with disconnects := h } } : Session).trail =
      s.trail.setHub s.trail.number h := by
  have hset : s.setCycle { s.cycle with disconnects := h } =
      { s with cycle := { s.cycle with disconnects := h } } := if_pos rfl
  rw [← hset]
  exact trail_setCycle cycle?_number h

theorem trail_subscribeCauses (n : Nat) :
    (s.subscribeCauses n).1.trail =
      s.trail.setHub s.trail.number (s.cycle.disconnects.subscribe n).1 :=
  trail_setCurrent _

theorem trail_subscribeObserver (o : Observer) :
    (s.subscribeObserver o).trail =
      (s.trail.setHub s.trail.number (s.cycle.disconnects.subscribeWaiting
        s.settings.observerBuffer (.observer o.name)).1).setObserver
          { o with subscription := some (s.trail.number, (s.cycle.disconnects.subscribeWaiting
            s.settings.observerBuffer (.observer o.name)).2) } := by
  rw [← trail_setCurrent]
  rfl

/-! ## The end of a cycle -/

theorem endCycle_ended {c : Cycle} (hl : c.disconnects.Calm) (hc : c.disconnects.closed = false)
    (hfresh : ∀ id p, c.disconnects.pipeline? id = some p → p.unread = []) (cause : Option Cause) :
    ∃ h, endCycle c cause = ({ c with disconnects := h }, c.disconnects.waiters.map (·, cause)) ∧
      Hub.Ended cause c.disconnects h := by
  cases cause with
  | none =>
    refine ⟨c.disconnects.close.hub, ?_, hl.ended_close hc⟩
    rw [endCycle, (hl.close_eq hc).1]
  | some cause =>
    obtain ⟨hended, hreceived⟩ := hl.ended_publish hc hfresh () cause
    exact ⟨_, Prod.ext rfl hreceived, hended⟩

theorem trail_turnCycle {cause : Option Cause} {h : Hub Unit CauseReader Cause}
    (hend : endCycle s.cycle cause =
      ({ s.cycle with disconnects := h }, s.cycle.disconnects.waiters.map (·, cause)))
    (active : Option Active) :
    ∃ s' : Session, s'.trail = s.trail.turn h ∧
      s.turnCycle cause active = s'.readCauses (s.cycle.disconnects.waiters.map (·, cause)) := by
  refine ⟨{ s with
    cycle := freshCycle s.settings (s.cycle.number + 1)
    past := { s.cycle with disconnects := h } :: s.past
    active }, ?_, ?_⟩
  · refine congrArg (fun f => { s.trail with number := s.cycle.number + 1, hub? := f })
      (funext fun k => ?_)
    show Option.map (·.disconnects) (if s.cycle.number + 1 = k then some (freshCycle ..)
        else ({ s.cycle with disconnects := h } :: s.past).find? (·.number = k)) =
      if k = s.cycle.number + 1 then some (freshCycle ..).disconnects
      else if k = s.cycle.number then some h else (s.cycle? k).map (·.disconnects)
    by_cases hk : k = s.cycle.number + 1
    · rw [if_pos hk.symm, if_pos hk]
      rfl
    · rw [if_neg fun h => hk h.symm, if_neg hk, List.find?_cons]
      by_cases hk' : k = s.cycle.number
      · rw [if_pos hk', decide_eq_true hk'.symm]
        rfl
      · have hne : s.cycle.number ≠ k := fun h => hk' h.symm
        rw [if_neg hk', decide_eq_false hne, cycle?, if_neg hne]
  · rw [turnCycle, hend]

end trail

end Switchboard.Session
