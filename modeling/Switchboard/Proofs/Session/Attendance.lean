import Switchboard.Proofs.Session.Rest

/-!
# Who waits in the current cycle

Every observer that is running waits in the current cycle, and every subscription to causes belongs
to somebody: a handle was given out for it, or an observer works on it.

**When a cycle ends** its readers return one after another. An observer among those who are still
returning has its place in the cycle that has ended (`Attended`). When its receive returns it gives
up that place, and takes one in the cycle that has begun or none (`MovesOn`).

**Main statements** (`Turn.attended`, `run_attended`). Every turn keeps it so, and so it is between
two steps of a run.
-/

namespace Switchboard.Session

open Hub (Use Confined Ended)

/-- Where the subscriptions are while some readers of the last cycle are still returning. -/
structure Attended (handles : List CauseHandle) (returning : List CauseReader) (t : Trail) :
    Prop where
  waits : ∀ o ∈ t.observers, ∀ k id, o.subscription = some (k, id) →
    .observer o.name ∉ returning →
    k = t.number ∧ ∃ p, t.slot k id = some p ∧ p.receiver = some (.observer o.name)
  left : ∀ o ∈ t.observers, ∀ k id, o.subscription = some (k, id) →
    .observer o.name ∈ returning → k ≠ t.number
  owned : ∀ k id p, t.slot k id = some p →
    ⟨k, id⟩ ∈ handles ∨ ∃ o ∈ t.observers, o.subscription = some (k, id)

/-- The observer `o` has given up its subscription and goes on as `o'`, perhaps with a new one in
the current cycle. Everybody else is as before. -/
structure MovesOn (o o' : Observer) (t t' : Trail) : Prop where
  name : o'.name = o.name
  number : t'.number = t.number
  observers : t'.observers = (t.setObserver o').observers
  old : ∀ k id, o.subscription = some (k, id) → t'.slot k id = none
  new : ∀ k id, o'.subscription = some (k, id) →
    k = t.number ∧ (∃ p, t'.slot k id = some p ∧ p.receiver = some (.observer o.name)) ∧
      ∀ p ∈ t.observers, p.subscription ≠ some (k, id)
  slot : ∀ k id, o.subscription ≠ some (k, id) → o'.subscription ≠ some (k, id) →
    t'.slot k id = t.slot k id

section trail

variable {owner : Nat → Option CauseHandle} {handles : List CauseHandle}
  {returning returning' : List CauseReader} {t t' : Trail} {k : Nat}
  {h h' : Hub Unit CauseReader Cause} {o o' : Observer}

theorem Attended.congr (ha : Attended handles returning t)
    (h : ∀ o ∈ t.observers, (.observer o.name ∈ returning' ↔ .observer o.name ∈ returning)) :
    Attended handles returning' t :=
  ⟨fun o hmem k id hsub hnot => ha.waits o hmem k id hsub fun hin => hnot ((h o hmem).mpr hin),
    fun o hmem k id hsub hin => ha.left o hmem k id hsub ((h o hmem).mp hin), ha.owned⟩

/-- Two observers do not share a subscription in the current cycle. -/
theorem Attended.alone (ha : Attended handles returning t) (hmem : o ∈ t.observers)
    {p : Pipeline (Publication Unit Cause) CauseReader Cause} {id : SubscriptionId}
    (hp : t.slot t.number id = some p) {name : String} (hr : p.receiver = some (.observer name))
    (hne : o.name ≠ name) : o.subscription ≠ some (t.number, id) := by
  intro hsub
  by_cases hin : CauseReader.observer o.name ∈ returning
  · exact ha.left o hmem _ _ hsub hin rfl
  · obtain ⟨-, q, hq, hr'⟩ := ha.waits o hmem _ _ hsub hin
    rw [hp, Option.some.injEq] at hq
    rw [← hq, hr, Option.some.injEq, CauseReader.observer.injEq] at hr'
    exact hne hr'.symm

/-- **An observer that moves on is returning no more.** -/
theorem Attended.movesOn (ha : Attended handles returning t) (ho : Orderly owner handles t)
    (hmem : o ∈ t.observers) (hm : MovesOn o o' t t')
    (hreturn : ∀ name, .observer name ∈ returning' ↔ .observer name ∈ returning ∧ name ≠ o.name) :
    Attended handles returning' t' := by
  have hafter : ∀ p ∈ t'.observers, p = o' ∨ p ∈ t.observers ∧ p.name ≠ o.name := by
    intro p hp
    rw [hm.observers] at hp
    obtain ⟨q, hq, rfl⟩ := List.mem_map.mp hp
    by_cases hn : q.name = o'.name
    · exact Or.inl (if_pos hn)
    · rw [if_neg hn]
      exact Or.inr ⟨hq, hm.name ▸ hn⟩
  have hstays : ∀ p ∈ t.observers, p.name ≠ o.name → p ∈ t'.observers := by
    intro p hp hn
    rw [hm.observers]
    exact List.mem_map.mpr ⟨p, hp, if_neg (hm.name ▸ hn)⟩
  have hself : o' ∈ t'.observers := by
    rw [hm.observers]
    exact List.mem_map.mpr ⟨o, hmem, if_pos hm.name.symm⟩
  constructor
  case waits =>
    intro p hp k id hsub hnot
    rw [hm.number]
    rcases hafter p hp with rfl | ⟨hp, hn⟩
    · obtain ⟨hk, hslot, -⟩ := hm.new k id hsub
      exact ⟨hk, by rwa [hm.name]⟩
    · obtain ⟨rfl, q, hq, hr⟩ := ha.waits p hp k id hsub fun hin =>
        hnot ((hreturn _).mpr ⟨hin, hn⟩)
      refine ⟨rfl, q, ?_, hr⟩
      -- Nobody else's receive stands on the subscription that was given up or taken.
      rw [hm.slot _ id (ha.alone hmem hq hr hn.symm) fun h => (hm.new _ _ h).2.2 p hp hsub]
      exact hq
  case left =>
    intro p hp k id hsub hin
    rw [hm.number]
    rcases hafter p hp with rfl | ⟨hp, -⟩
    · exact absurd hm.name ((hreturn _).mp hin).2
    · exact ha.left p hp k id hsub ((hreturn _).mp hin).1
  case owned =>
    intro k id p hp
    by_cases hnew : o'.subscription = some (k, id)
    · exact Or.inr ⟨o', hself, hnew⟩
    · by_cases hold : o.subscription = some (k, id)
      · rw [hm.old k id hold] at hp
        cases hp
      · rw [hm.slot k id hold hnew] at hp
        refine (ha.owned k id p hp).imp_right fun ⟨q, hq, hsub⟩ =>
          ⟨q, hstays q hq fun hn => ?_, hsub⟩
        exact hold (ho.eq_of_name hq hmem hn ▸ hsub)

theorem Orderly.reads_unique (ho : Orderly owner handles t) {k k' : Nat} {id id' : SubscriptionId}
    {c : CauseReader} (hc : Reads owner handles t k id c) (hc' : Reads owner handles t k' id' c) :
    (k, id) = (k', id') := by
  cases c with
  | call c =>
    have heq : (⟨k, id⟩ : CauseHandle) = ⟨k', id'⟩ :=
      Option.some.inj (hc.1.symm.trans hc'.1)
    injection heq with hk hid
    rw [hk, hid]
  | observer name =>
    obtain ⟨o, hmem, hn, hsub⟩ := hc
    obtain ⟨o', hmem', hn', hsub'⟩ := hc'
    rw [ho.eq_of_name hmem hmem' (hn.trans hn'.symm), hsub'] at hsub
    exact (Option.some.inj hsub).symm

theorem Orderly.waiters_nodup (ho : Orderly owner handles t) (hk : t.hub? k = some h) :
    h.waiters.Nodup := by
  have hs := (ho.calm k h hk).sound
  have hreads : ∀ e ∈ h.pipelines, ∀ c ∈ e.2.receiver.toList, Reads owner handles t k e.1 c :=
    fun e he c hc => ho.reads k e.1 e.2 c ((Trail.slot_of_hub hk _).trans (hs.pipeline?_of_mem he))
      (Option.mem_toList.mp hc)
  refine List.nodup_flatMap.mpr ⟨fun e _ => ?_, ?_⟩
  · cases e.2.receiver with
    | none => exact List.nodup_nil
    | some c => exact List.nodup_singleton c
  · refine (List.pairwise_map.mp hs.nodup).imp_of_mem fun {a b} hma hmb hne c hca hcb => hne ?_
    have heq := ho.reads_unique (hreads a hma c hca) (hreads b hmb c hcb)
    injection heq

theorem Attended.turn (ha : Attended handles [] t) (ho : Orderly owner handles t)
    (hk : t.hub? t.number = some h) {cause : Option Cause} (he : Ended cause h h') :
    Attended handles h.waiters (t.turn h') := by
  have hlost : ∀ o ∈ t.observers, ∀ k id, o.subscription = some (k, id) →
      k = t.number ∧ .observer o.name ∈ h.waiters := by
    intro o hmem k id hsub
    obtain ⟨rfl, p, hp, hr⟩ := ha.waits o hmem k id hsub List.not_mem_nil
    rw [Trail.slot_of_hub hk] at hp
    exact ⟨rfl, (mem_waiters (ho.calm _ h hk).sound).mpr ⟨id, p, hp, hr⟩⟩
  refine ⟨fun o hmem k id hsub hnot => absurd (hlost o hmem k id hsub).2 hnot,
    fun o hmem k id hsub _ => ?_, fun k id p hp => ?_⟩
  · rw [(hlost o hmem k id hsub).1]
    exact Nat.ne_of_lt (Nat.lt_succ_self _)
  · obtain ⟨g, hg, hslot⟩ := Option.bind_eq_some_iff.mp hp
    rcases ho.hub?_turn hg with ⟨-, rfl⟩ | ⟨rfl, rfl⟩ | ⟨-, hg⟩
    · cases hslot
    · rw [he.pipeline] at hslot
      obtain ⟨q, hq, -⟩ := Option.map_eq_some_iff.mp hslot
      exact ha.owned _ id q ((Trail.slot_of_hub hk id).trans hq)
    · exact ha.owned k id p ((Trail.slot_of_hub hg id).trans hslot)

theorem Attended.confined (ha : Attended handles [] t) (ho : Orderly owner handles t)
    {H : CauseHandle} (hH : H ∈ handles) (hk : t.hub? H.cycle = some h) {caller : CauseReader}
    {taken : List Cause} {received : List (CauseReader × Option Cause)}
    (hc : Confined caller H.id taken h h' received) :
    Attended handles [] (t.setHub H.cycle h') := by
  have hslot : ∀ k id, (k, id) ≠ (H.cycle, H.id) →
      (t.setHub H.cycle h').slot k id = t.slot k id := by
    intro k id hne
    rw [Trail.slot_setHub]
    by_cases hcycle : k = H.cycle
    · subst hcycle
      rw [if_pos rfl, hc.elsewhere id fun hid => hne (by rw [hid]), Trail.slot_of_hub hk]
    · rw [if_neg hcycle]
  refine ⟨fun o hmem k id hsub hnot => ?_, fun _ _ _ _ _ hin => absurd hin List.not_mem_nil,
    fun k id p hp => ?_⟩
  · rw [hslot k id fun heq => ho.apart H hH o hmem (heq ▸ hsub)]
    exact ha.waits o hmem k id hsub hnot
  · by_cases heq : (k, id) = (H.cycle, H.id)
    · injection heq with hcycle hid
      refine Or.inl ?_
      rw [hcycle, hid]
      exact hH
    · exact ha.owned k id p ((hslot k id heq).symm.trans hp)

theorem Attended.follow (ha : Attended handles [] t) (ho : Orderly owner handles t)
    (hk : t.hub? t.number = some h) (p : Pipeline (Publication Unit Cause) CauseReader Cause) :
    Attended (handles ++ [⟨t.number, h.lastId + 1⟩]) [] (t.setHub t.number (h.register p).1) := by
  have hslot := slot_register hk (ho.calm _ _ hk).sound p
  refine ⟨fun o hmem k id hsub hnot => ?_, fun _ _ _ _ _ hin => absurd hin List.not_mem_nil,
    fun k id q hq => ?_⟩
  · rw [hslot, if_neg]
    · exact ha.waits o hmem k id hsub hnot
    · rintro ⟨rfl, rfl⟩
      exact (ho.apart_next hk).1 o hmem hsub
  · rw [hslot] at hq
    split at hq
    · rename_i hnew
      rw [hnew.1, hnew.2]
      exact Or.inl (List.mem_append_right _ (List.mem_singleton_self _))
    · exact (ha.owned k id q hq).imp_left (List.mem_append_left _)

theorem Attended.forget (ha : Attended handles [] t) {name : String}
    (hn : ∀ o ∈ t.observers, o.name = name → o.subscription = none) :
    Attended handles [] { t with observers := t.observers.filter (·.name != name) } := by
  refine ⟨fun o hmem => ha.waits o (List.mem_of_mem_filter hmem),
    fun o hmem => ha.left o (List.mem_of_mem_filter hmem), fun k id p hp => ?_⟩
  refine (ha.owned k id p hp).imp_right fun ⟨o, hmem, hsub⟩ => ⟨o, ?_, hsub⟩
  refine List.mem_filter.mpr ⟨hmem, bne_iff_ne.mpr fun heq => ?_⟩
  rw [hn o hmem heq] at hsub
  cases hsub

theorem Attended.enroll (ha : Attended handles [] t) (hs : o.subscription = none) :
    Attended handles [] { t with observers := t.observers ++ [o] } := by
  refine ⟨fun p hp k id hsub hnot => ?_, fun _ _ _ _ _ hin => absurd hin List.not_mem_nil,
    fun k id p hp => ?_⟩
  · rcases List.mem_append.mp hp with hp | hp
    · exact ha.waits p hp k id hsub hnot
    · rw [List.mem_singleton.mp hp, hs] at hsub
      cases hsub
  · exact (ha.owned k id p hp).imp_right fun ⟨q, hq, hsub⟩ => ⟨q, List.mem_append_left _ hq, hsub⟩

theorem Attended.release (ha : Attended handles [] t) (hk : t.hub? t.number = some h)
    (he : Ended none h h') (hidle : ∀ o ∈ t.observers, o.subscription = none) :
    Attended handles [] { t.setHub t.number h' with released := true } := by
  refine ⟨fun o hmem k id hsub => ?_, fun _ _ _ _ _ hin => absurd hin List.not_mem_nil,
    fun k id p hp => ?_⟩
  · rw [hidle o hmem] at hsub
    cases hsub
  · have hp' : (t.setHub t.number h').slot k id = some p := hp
    rw [Trail.slot_setHub] at hp'
    split at hp'
    · rename_i hnumber
      rw [he.pipeline] at hp'
      obtain ⟨q, hq, -⟩ := Option.map_eq_some_iff.mp hp'
      rw [hnumber]
      exact ha.owned _ id q ((Trail.slot_of_hub hk id).trans hq)
    · exact ha.owned k id p hp'

end trail

/-! ## Moving on -/

section readers

variable {owner : Nat → Option CauseHandle} {handles : List CauseHandle} {s : Session}
  {o : Observer}

theorem withdraw_movesOn (ho : Orderly owner handles s.trail) (hmem : o ∈ s.observers)
    (o' : Observer) (hname : o'.name = o.name) (hnone : o'.subscription = none) :
    MovesOn o o' s.trail ((s.unsubscribed o).setObserver o').trail := by
  obtain ⟨-, ⟨hub?, htrail⟩, hslot⟩ := trail_unsubscribed ho hmem
  have hset : ((s.unsubscribed o).setObserver o').trail = (s.unsubscribed o).trail.setObserver o' :=
    rfl
  rw [hset]
  rw [htrail] at hslot ⊢
  exact ⟨hname, rfl, rfl, fun k id hsub => (hslot k id).trans (if_pos hsub),
    fun k id hsub => absurd hsub (by rw [hnone]; exact nofun),
    fun k id hold _ => (hslot k id).trans (if_neg hold)⟩

theorem subscribe_movesOn (ho : Orderly owner handles s.trail) (hrel : s.released = false)
    (hmem : o ∈ s.observers) (o' : Observer) (hname : o'.name = o.name) :
    ∃ at', MovesOn o { o' with subscription := some at' } s.trail
      ((s.unsubscribed o).subscribeObserver o').trail := by
  obtain ⟨ho₁, ⟨hub?, htrail⟩, hslot⟩ := trail_unsubscribed ho hmem
  set s₁ := s.unsubscribed o
  have hrel₁ : s₁.released = false := (congrArg Trail.released htrail).trans hrel
  have hnumber : s₁.trail.number = s.trail.number := by rw [htrail]
  have hobs : s₁.trail.observers = s.trail.observers := by rw [htrail]
  have hfresh := (ho₁.apart_next (trail_hub?_number (s := s₁))).1
  have hslot₁ := slot_subscribeObserver ho₁ hrel₁ o'
  have htrail₁ := trail_subscribeObserver_eq ho₁ hrel₁ o'
  rw [hobs] at hfresh
  refine ⟨(s₁.trail.number, s₁.cycle.disconnects.lastId + 1), hname, ?_, ?_, fun k id hsub => ?_,
    fun k id hsub => ?_, fun k id hold hnew => ?_⟩
  · rw [htrail₁]
    exact hnumber
  · rw [htrail₁]
    show s₁.trail.observers.map _ = s.trail.observers.map _
    rw [hobs]
  · rw [hslot₁, if_neg, hslot, if_pos hsub]
    rintro ⟨rfl, rfl⟩
    exact hfresh o hmem hsub
  · injection Option.some.inj hsub with hk hid
    subst hk hid
    refine ⟨hnumber, ⟨_, (hslot₁ _ _).trans (if_pos ⟨rfl, rfl⟩), ?_⟩, hfresh⟩
    rw [← hname]
    rfl
  · rw [hslot₁, if_neg, hslot, if_neg hold]
    rintro ⟨rfl, rfl⟩
    exact hnew rfl

theorem observe_movesOn (ho : Orderly owner handles s.trail) (hrel : s.released = false)
    {name : String} (hfind : s.observer? name = some o) (cause : Option Cause) :
    ∃ o', MovesOn o o' s.trail (s.observe name cause).trail := by
  obtain ⟨hmem, -⟩ := mem_of_observer? hfind
  have hobserve : s.observe name cause = _ := observe_of_some hfind cause
  rw [hobserve]
  split
  · exact ⟨_, withdraw_movesOn ho hmem _ rfl rfl⟩
  · obtain ⟨at', hm⟩ :=
      subscribe_movesOn ho hrel hmem { o with causes := o.causes ++ cause.toList } rfl
    exact ⟨_, hm⟩

/-- **One reader after another returns.** -/
theorem Attended.readCauses {received : List (CauseReader × Option Cause)}
    (ha : Attended handles (received.map (·.1)) s.trail) (ho : Orderly owner handles s.trail)
    (hrel : s.released = false) (hn : (received.map (·.1)).Nodup) :
    Attended handles [] (s.readCauses received).trail := by
  induction received generalizing s with
  | nil => exact ha
  | cons r rest ih =>
    rw [List.map_cons, List.nodup_cons] at hn
    obtain ⟨call | name, cause⟩ := r
    · have hstep := trail_complete_cause s call cause
      have ha₁ : Attended handles (rest.map (·.1)) s.trail :=
        ha.congr fun o _ => by simp
      refine ih (s := s.complete (.cause call cause)) ?_ ?_ hrel hn.2
      · rw [hstep]
        exact ⟨ha₁.waits, ha₁.left, ha₁.owned⟩
      · rw [hstep]
        exact ho.answered _
    · obtain ⟨ho₁, hstirs, -⟩ := observe_spec ho hrel name cause
      refine ih (s := s.observe name cause) ?_ ho₁ (hstirs.released.trans hrel) hn.2
      cases hfind : s.observer? name with
      | none =>
        have hsame : s.observe name cause = s := by rw [observe, hfind]
        rw [hsame]
        refine ha.congr fun o hmem => ?_
        have hne := observer?_eq_none hfind o hmem
        simp [hne]
      | some o =>
        obtain ⟨hmem, rfl⟩ := mem_of_observer? hfind
        obtain ⟨o', hm⟩ := observe_movesOn ho hrel hfind cause
        refine ha.movesOn ho hmem hm fun name => ?_
        rw [List.map_cons, List.mem_cons, CauseReader.observer.injEq]
        constructor
        · intro hin
          exact ⟨Or.inr hin, fun hname => hn.1 (hname ▸ hin)⟩
        · rintro ⟨hname | hin, hne⟩
          · exact absurd hname hne
          · exact hin

/-- **The turn of a cycle.** -/
theorem Attended.turnCycle (ha : Attended handles [] s.trail) (ho : Orderly owner handles s.trail)
    (hrel : s.released = false) (cause : Option Cause) (active : Option Active) :
    Attended handles [] (s.turnCycle cause active).trail := by
  have hk := trail_hub?_number (s := s)
  obtain ⟨h, hend, hended⟩ := ho.exists_ended hrel cause
  obtain ⟨s', htrail, hturn⟩ := trail_turnCycle hend active
  have hmap : (s.cycle.disconnects.waiters.map (·, cause)).map (·.1) =
      s.cycle.disconnects.waiters := by
    rw [List.map_map]
    exact List.map_id _
  have ho' : Orderly owner handles s'.trail := by
    rw [htrail]
    exact ho.turn hk hrel hended
  rw [hturn]
  refine Attended.readCauses ?_ ho' ((congrArg Trail.released htrail).trans hrel) ?_
  · rw [hmap, htrail]
    exact ha.turn ho hk hended
  · rw [hmap]
    exact ho.waiters_nodup hk

end readers

/-! ## Turns -/

section turns

variable {step : Step} {owner : Nat → Option CauseHandle} {t t' : Scene}

/-- **Every turn leaves the running observers in the current cycle**, and no subscription without an
owner. -/
theorem Turn.attended (h : Turn step owner t t') (hv : Valid owner t)
    (ha : Attended t.handles [] t.session.trail) : Attended t'.handles [] t'.session.trail := by
  have ho := hv.orderly
  -- Transitions turn the cycle; most other turns leave the trail as it is.
  have hsame : ∀ {s : Session}, s.trail = t.session.trail → Attended t.handles [] s.trail :=
    fun htrail => htrail ▸ ha
  have hturn : ∀ {s s₀ : Session} {cause : Option Cause} {active : Option Active},
      t.session.released = false → s₀.trail = t.session.trail →
      s.trail = (s₀.turnCycle cause active).trail → Attended t.handles [] s.trail := by
    intro s s₀ cause active hrel htrail₀ htrail
    rw [← htrail₀] at ho ha
    rw [htrail]
    exact ha.turnCycle ho ((congrArg Trail.released htrail₀).trans hrel) cause active
  cases h with
  | aside _ htrail => exact hsame htrail
  | letGo _ _ _ htrail => exact hsame htrail
  | mail _ _ htrail => exact hsame htrail
  | reject _ htrail => exact hsame htrail
  | signal _ _ htrail => exact hsame htrail
  | gather _ => exact hsame (s := { t.session with watches := _ }) rfl
  | stale _ _ => exact hsame rfl
  | join _ hh _ _ _ htrail₀ htrail => exact hturn (hv.not_released_of_handle hh) htrail₀ htrail
  | leave _ hi _ htrail₀ htrail => exact hturn (hv.not_released_of_installed hi) htrail₀ htrail
  | watch _ _ hi _ htrail₀ htrail => exact hturn (hv.not_released_of_installed hi) htrail₀ htrail
  | release _ hrel hh =>
    have hidle := idle_of_not_isHeld hh
    obtain ⟨h, hended, htrail⟩ := ho.trail_release hrel hidle
    have ha' := ha.release trail_hub?_number hended hidle
    show Attended t.handles [] t.session.release.trail
    rw [htrail]
    exact ⟨ha'.waits, ha'.left, ha'.owned⟩
  | @causes handle use call c _ hH _ hcycle =>
    have hk := trail_hub?_of_cycle? hcycle
    have hc : Confined (.call call) handle.id _ c.disconnects _ _ := use.confined (ho.calm _ _ hk)
    have ha' := ha.confined ho hH hk hc
    show Attended t.handles [] (readCauses _ _).trail
    rw [trail_causes ho hH call hcycle use]
    exact ⟨ha'.waits, ha'.left, ha'.owned⟩
  | follow n hh =>
    obtain ⟨hgiven, htrail⟩ := subscribeCauses_spec ho (hv.not_released_of_handle hh) n
    show Attended (t.handles ++ [(t.session.subscribeCauses n).2]) []
      (t.session.subscribeCauses n).1.trail
    rw [hgiven, htrail]
    exact ha.follow ho trail_hub?_number _
  | @stop o number id _ hfind hsub =>
    obtain ⟨hmem, -⟩ := mem_of_observer? hfind
    have hm := withdraw_movesOn ho hmem { o with subscription := none } rfl rfl
    rw [unsubscribed, hsub] at hm
    exact ha.movesOn ho hmem hm fun name => by simp
  | forget name _ hn => exact ha.forget hn
  | @enroll o _ hh hnew hs =>
    set s₁ : Session := { t.session with observers := t.session.observers ++ [o] }
    have hrel : s₁.released = false := hv.not_released_of_handle hh
    have hmem : o ∈ s₁.observers := List.mem_append_right _ (List.mem_singleton_self o)
    have ho₁ : Orderly owner t.handles s₁.trail := ho.enroll hnew hs
    have ha₁ : Attended t.handles [] s₁.trail := ha.enroll hs
    obtain ⟨at', hm⟩ := subscribe_movesOn ho₁ hrel hmem o rfl
    rw [unsubscribed, hs] at hm
    exact ha₁.movesOn ho₁ hmem hm fun name => by simp

theorem Turns.attended (h : Turns step owner t t') (hv : Valid owner t)
    (ha : Attended t.handles [] t.session.trail) : Attended t'.handles [] t'.session.trail := by
  induction h with
  | refl => exact ha
  | tail hturns hturn ih => exact hturn.attended (Turns.valid hturns hv) ih

end turns

/-! ## Runs -/

theorem Run.AtRest.attended_next {r : Run} (hr : r.AtRest)
    (ha : Attended r.handles [] r.session.trail) (st : Step) :
    Attended (r.next st).handles [] (r.next st).session.trail := by
  have ha' := (hr.goes st).turns.attended (hr.valid.append [st]) ha
  exact ⟨ha'.waits, ha'.left, ha'.owned⟩

theorem Run.AtRest.attended_extend {r : Run} (hr : r.AtRest)
    (ha : Attended r.handles [] r.session.trail) (steps : List Step) :
    Attended (r.extend steps).handles [] (r.extend steps).session.trail := by
  induction steps generalizing r with
  | nil => exact ha
  | cons st steps ih => exact ih (hr.next st) (hr.attended_next ha st)

/-- **Between two steps every running observer waits in the current cycle.** -/
theorem run_attended (settings : Settings) (players : List Player) (catalog : List Packet.Entry)
    (steps : List Step) :
    let r := run settings players catalog steps
    Attended r.handles [] r.session.trail := by
  refine (run_atRest settings players catalog []).attended_extend ⟨fun _ h => (nomatch h),
    fun _ h => (nomatch h), fun k id p hp => ?_⟩ steps
  have ho := orderly_new settings (.new players catalog) fun _ => none
  obtain ⟨h, hk, hp⟩ := Option.bind_eq_some_iff.mp hp
  obtain ⟨c, hc, rfl⟩ := Option.map_eq_some_iff.mp hk
  have hc' : (if 0 = k then some (freshCycle settings 0) else none) = some c := hc
  split at hc'
  · rw [← Option.some.inj hc'] at hp
    cases hp
  · cases hc'

end Switchboard.Session
