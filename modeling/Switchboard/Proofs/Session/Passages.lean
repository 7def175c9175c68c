import Switchboard.Proofs.Session.Signals
import Switchboard.Proofs.Session.Valid

/-!
# What a turn is to the holder of a handle

For those who hold handles there are four kinds of turns (`Passage`): nothing happens to them, the
current cycle ends and the next begins, the last cycle ends, or one of the handles is used.

**Causes received** (`heard`). A receive that waits through a handle gives its cause to the holder.
At the end of a cycle each of its handles has the cause waiting, or has heard it
(`Orderly.farewell`).
-/

namespace Switchboard.Session

open Hub (Use Ended)

/-- The causes with which the calls made on a handle returned. -/
def heard (owner : Nat → Option CauseHandle) (handle : CauseHandle)
    (answered : List (Nat × Option Cause)) : List Cause :=
  answered.filterMap fun a => if owner a.1 = some handle then a.2 else none

/-- The causes that have come to the holder of a handle. -/
def Scene.got (owner : Nat → Option CauseHandle) (t : Scene) (handle : CauseHandle) : List Cause :=
  through handle t.taken ++ heard owner handle t.session.trail.answered

/-- The causes that are there for the holder of a handle. -/
def Trail.unread (t : Trail) (handle : CauseHandle) : List Cause :=
  (t.slot handle.cycle handle.id).elim [] (·.unread)

theorem Trail.unread_of_slot {t : Trail} {handle : CauseHandle}
    {p : Pipeline (Publication Unit Cause) CauseReader Cause}
    (hp : t.slot handle.cycle handle.id = some p) : t.unread handle = p.unread := by
  rw [unread, hp]
  rfl

section heard

variable {owner : Nat → Option CauseHandle} {handle : CauseHandle}

theorem heard_append (a b : List (Nat × Option Cause)) :
    heard owner handle (a ++ b) = heard owner handle a ++ heard owner handle b :=
  List.filterMap_append

theorem through_append (a b : List (CauseHandle × Cause)) :
    through handle (a ++ b) = through handle a ++ through handle b := by
  rw [through, List.filter_append, List.map_append]
  rfl

theorem through_map_self (values : List Cause) : through handle (values.map (handle, ·)) = values := by
  have hall : ∀ p ∈ values.map (handle, ·), decide (p.1 = handle) = true := by
    intro p hp
    obtain ⟨v, -, rfl⟩ := List.mem_map.mp hp
    exact decide_eq_true rfl
  rw [through, List.filter_eq_self.mpr hall, List.map_map]
  exact List.map_id _

theorem through_map_of_ne {other : CauseHandle} (hne : other ≠ handle) (values : List Cause) :
    through handle (values.map (other, ·)) = [] := by
  have hnone : ∀ p ∈ values.map (other, ·), ¬ decide (p.1 = handle) = true := by
    intro p hp
    obtain ⟨v, -, rfl⟩ := List.mem_map.mp hp
    rw [decide_eq_true_eq]
    exact hne
  rw [through, List.filter_eq_nil_iff.mpr hnone]
  rfl

theorem heard_eq_nil {received : List (CauseReader × Option Cause)}
    (h : ∀ r ∈ received, ∀ call, r.1 = .call call → owner call = some handle → r.2 = none) :
    heard owner handle (received.filterMap callOf) = [] := by
  refine List.filterMap_eq_nil_iff.mpr fun a ha => ?_
  obtain ⟨r, hr, hcall⟩ := List.mem_filterMap.mp ha
  obtain ⟨call | name, cause⟩ := r
  · obtain rfl := Option.some.inj hcall
    by_cases ho : owner call = some handle
    · rw [if_pos ho]
      exact h _ hr call rfl ho
    · exact if_neg ho
  · cases hcall

end heard

/-! ## The end of a cycle -/

section farewell

variable {owner : Nat → Option CauseHandle} {handles : List CauseHandle} {t : Trail} {k : Nat}
  {h h' : Hub Unit CauseReader Cause} {handle : CauseHandle} {cause : Option Cause}

theorem Orderly.heard_none (ho : Orderly owner handles t) (hk : t.hub? k = some h)
    (hnone : handle.cycle = k → handle ∈ handles → h.pipeline? handle.id = none)
    (cause : Option Cause) :
    heard owner handle ((h.waiters.map (·, cause)).filterMap callOf) = [] := by
  refine heard_eq_nil fun r hr call hcall howner => ?_
  obtain ⟨c, hc, rfl⟩ := List.mem_map.mp hr
  obtain ⟨id, p, hp, hrec⟩ := (mem_waiters (ho.calm k h hk).sound).mp hc
  obtain ⟨hat, hgiven⟩ := ho.reads k id p (.call call) ((Trail.slot_of_hub hk id).trans hp)
    (hcall ▸ hrec)
  obtain rfl : handle = ⟨k, id⟩ := Option.some.inj (howner.symm.trans hat)
  rw [hnone rfl hgiven] at hp
  cases hp

/-- Whoever waits on a handle hears the last cause. -/
theorem Orderly.heard_here (ho : Orderly owner handles t) (hk : t.hub? handle.cycle = some h)
    (hH : handle ∈ handles) {p : Pipeline (Publication Unit Cause) CauseReader Cause}
    (hp : h.pipeline? handle.id = some p) (cause : Option Cause) :
    heard owner handle ((h.waiters.map (·, cause)).filterMap callOf) =
      if p.receiver.isNone then [] else cause.toList := by
  have hs := (ho.calm _ h hk).sound
  obtain ⟨l₁, l₂, hl, -⟩ := Hub.exists_split hs.nodup hp
  have hn := hs.nodup
  rw [hl, List.map_append, List.map_cons, List.nodup_append, List.nodup_cons] at hn
  -- Those who wait on other subscriptions wait on other handles.
  have hother : ∀ l : List (SubscriptionId × Pipeline (Publication Unit Cause) CauseReader Cause),
      (∀ e ∈ l, e ∈ h.pipelines ∧ e.1 ≠ handle.id) →
      heard owner handle (((l.flatMap (·.2.receiver.toList)).map (·, cause)).filterMap callOf) =
        [] := by
    intro l hl
    refine heard_eq_nil fun r hr call hcall howner => ?_
    obtain ⟨c, hc, rfl⟩ := List.mem_map.mp hr
    obtain ⟨⟨id, q⟩, he, hrec⟩ := List.mem_flatMap.mp hc
    obtain ⟨hmem, hne⟩ := hl _ he
    obtain ⟨hat, -⟩ := ho.reads _ id q (.call call)
      ((Trail.slot_of_hub hk id).trans (hs.pipeline?_of_mem hmem)) (hcall ▸ Option.mem_toList.mp hrec)
    have heq : handle = ⟨handle.cycle, id⟩ := Option.some.inj (howner.symm.trans hat)
    exact absurd (congrArg CauseHandle.id heq).symm hne
  have hfirst := hother l₁ fun e he => ⟨hl ▸ List.mem_append_left _ he, fun heq => by
    exact hn.2.2 e.1 (List.mem_map_of_mem he) handle.id (List.mem_cons_self ..) heq⟩
  have hlast := hother l₂ fun e he =>
    ⟨hl ▸ List.mem_append_right _ (List.mem_cons_of_mem _ he), fun heq => by
      have hmem : e.1 ∈ l₂.map (·.1) := List.mem_map_of_mem he
      rw [heq] at hmem
      exact hn.2.1.1 hmem⟩
  have hwaiters : h.waiters = l₁.flatMap (·.2.receiver.toList) ++
      (p.receiver.toList ++ l₂.flatMap (·.2.receiver.toList)) := by
    rw [Hub.waiters, hl, List.flatMap_append, List.flatMap_cons]
  rw [hwaiters, List.map_append, List.map_append, List.filterMap_append, List.filterMap_append,
    heard_append, heard_append, hfirst, hlast, List.nil_append, List.append_nil]
  cases hrec : p.receiver with
  | none => rfl
  | some c =>
    have hread := ho.reads _ _ p c ((Trail.slot_of_hub hk _).trans hp) hrec
    cases c with
    | call call =>
      show heard owner handle [(call, cause)] = cause.toList
      rw [heard, List.filterMap_cons, if_pos hread.1]
      cases cause <;> rfl
    | observer name =>
      obtain ⟨o, hmem, -, hsub⟩ := hread
      exact absurd hsub (ho.apart handle hH o hmem)

/-- **At the end of a cycle its handles have the last cause, or have heard it.** Those that were
cancelled before may miss it. -/
theorem Orderly.farewell (ho : Orderly owner handles t) (hk : t.hub? t.number = some h)
    (hend : Ended cause h h') (hH : handle ∈ handles) (hcycle : handle.cycle = t.number) :
    heard owner handle ((h.waiters.map (·, cause)).filterMap callOf) ++
        (h'.pipeline? handle.id).elim [] (·.unread) <+: cause.toList ∧
      ∀ p, h.pipeline? handle.id = some p → p.isOpen = true →
        ∃ p', h'.pipeline? handle.id = some p' ∧
          heard owner handle ((h.waiters.map (·, cause)).filterMap callOf) ++ p'.unread =
            cause.toList := by
  have hk' : t.hub? handle.cycle = some h := by
    rw [hcycle]
    exact hk
  have hbid := hend.pipeline handle.id
  cases hp : h.pipeline? handle.id with
  | none =>
    rw [hp, Option.map_none] at hbid
    rw [hbid, ho.heard_none hk' fun _ _ => hp]
    exact ⟨List.nil_prefix, fun _ h => nomatch h⟩
  | some p =>
    rw [hp, Option.map_some] at hbid
    have hu : p.unread = [] := by
      refine ho.fresh handle.id p ?_
      rw [Trail.slot_of_hub hk, hp]
    have hunread := ((ho.calm _ h hk).sound.fits_of hp).settled.unread_bidden hu cause
    rw [hbid, ho.heard_here hk' hH hp]
    show _ ++ (p.bidden cause).unread <+: _ ∧ _
    rw [hunread]
    constructor
    · cases p.receiver <;> cases p.isOpen <;> simp
    · intro q hq hopen
      obtain rfl := Option.some.inj hq
      refine ⟨_, rfl, ?_⟩
      rw [hunread, hopen]
      cases p.receiver <;> simp

end farewell

/-! ## Turns -/

/-- Why a cycle ends with a cause, or without one. A connect ends a cycle in which nothing was
installed. -/
def Reason (step : Step) (t : Scene) : Option Cause → Prop
  | none => t.session.installed = none
  | some cause => ∃ x, t.session.installed = some x ∧
      (step = .disconnect ∧ cause = .cancelled ∨ t.signals.lookup x = some cause)

/-- What a turn is to the holder of a handle. -/
inductive Passage (step : Step) (owner : Nat → Option CauseHandle) (t t' : Scene) : Prop
  /-- Nothing happens. -/
  | still :
      t'.taken = t.taken → t'.session.installed = t.session.installed →
      Stirs t.handles t.session.trail t'.session.trail → Passage step owner t t'
  /-- The current cycle ends, and the next one begins. -/
  | turn {h h' : Hub Unit CauseReader Cause} {cause : Option Cause} :
      t.session.released = false → t'.taken = t.taken → Reason step t cause →
      (t.session.installed = none ∨ t'.session.installed = none) →
      t.session.trail.hub? t.session.trail.number = some h → Ended cause h h' →
      Stirs t.handles
        ((t.session.trail.turn h').answer ((h.waiters.map (·, cause)).filterMap callOf))
        t'.session.trail →
      Passage step owner t t'
  /-- The last cycle ends. -/
  | release {h h' : Hub Unit CauseReader Cause} :
      t.session.released = false → t'.taken = t.taken →
      t.session.trail.hub? t.session.trail.number = some h → Ended none h h' →
      Stirs t.handles
        (({ t.session.trail.setHub t.session.trail.number h' with released := true } : Trail).answer
          ((h.waiters.map (·, none)).filterMap callOf))
        t'.session.trail →
      Passage step owner t t'
  /-- A handle is used. -/
  | use {handle : CauseHandle} {use : Use} {call : Nat} {h : Hub Unit CauseReader Cause} :
      step = .causes handle use → handle ∈ t.handles → owner call = some handle →
      t.session.trail.hub? handle.cycle = some h →
      t'.taken = t.taken ++ (use.on h handle.id (.call call)).result.map (handle, ·) →
      t'.session.installed = t.session.installed →
      Stirs t.handles
        ((t.session.trail.setHub handle.cycle (use.on h handle.id (.call call)).hub).answer
          ((use.on h handle.id (.call call)).received.filterMap callOf))
        t'.session.trail →
      Passage step owner t t'

section turns

variable {step : Step} {owner : Nat → Option CauseHandle} {t t' : Scene}

theorem passage_of_trail_eq {s : Session} (hl : s.installed = t.session.installed)
    (ht : s.trail = t.session.trail) : Passage step owner t (t.on s) := by
  refine .still rfl hl ?_
  show Stirs t.handles t.session.trail s.trail
  rw [ht]
  exact .refl _ _

theorem passage_of_turnCycle (ho : Orderly owner t.handles t.session.trail)
    (hrel : t.session.released = false) {s s₀ : Session} {cause : Option Cause}
    {active : Option Active} (ht₀ : s₀.trail = t.session.trail)
    (ht : s.trail = (s₀.turnCycle cause active).trail) (hreason : Reason step t cause)
    (hi : t.session.installed = none ∨ s.installed = none) {ready : List Watch} :
    Passage step owner t { t with session := s, ready := ready } := by
  have ho₀ := ho
  rw [← ht₀] at ho₀
  obtain ⟨h', hend, -, hstirs, -⟩ :=
    turnCycle_spec ho₀ ((congrArg Trail.released ht₀).trans hrel) cause active
  rw [ht₀, ← ht] at hstirs
  refine .turn hrel rfl hreason hi ?_ hend hstirs
  rw [← ht₀]
  exact trail_hub?_number

/-- **Every turn is one of four kinds.** -/
theorem Turn.passage (h : Turn step owner t t') (hv : Valid owner t)
    (hs : Signalled t.ready t.session.life t.signals) : Passage step owner t t' := by
  have ho := hv.orderly
  cases h with
  | aside hl ht => exact passage_of_trail_eq (congrArg Life.installed hl) ht
  | letGo _ hl _ ht => exact passage_of_trail_eq (congrArg Life.installed hl) ht
  | mail _ hl ht =>
    exact passage_of_trail_eq (congrArg Life.installed (hl.trans (foldl_start _ _))) ht
  | reject hl ht => exact passage_of_trail_eq (congrArg Life.installed hl) ht
  | signal _ hl ht =>
    refine .still rfl (congrArg Life.installed hl) ?_
    show Stirs t.handles t.session.trail (trail _)
    rw [ht]
    exact .refl _ _
  | gather _ => exact .still rfl rfl (.refl _ _)
  | stale _ _ => exact .still rfl rfl (.refl _ _)
  | join _ hh hi _ _ ht₀ ht =>
    exact passage_of_turnCycle ho (hv.not_released_of_handle hh) ht₀ ht hi (Or.inl hi)
  | leave hstep hi hl ht₀ ht =>
    exact passage_of_turnCycle ho (hv.not_released_of_installed hi) ht₀ ht
      ⟨_, hi, Or.inl ⟨hstep, rfl⟩⟩ (Or.inr (congrArg Life.installed hl))
  | @watch s s₀ w rest cause hready hf hi hl ht₀ ht =>
    have hmem : w ∈ t.ready ++ t.session.life.watches := by
      rw [hready]
      exact List.mem_cons_self ..
    exact passage_of_turnCycle ho (hv.not_released_of_installed hi) ht₀ ht
      ⟨_, hi, Or.inr (hs.fired w hmem hi cause hf)⟩ (Or.inr (congrArg Life.installed hl))
  | release _ hrel hh =>
    obtain ⟨h', hend, -, hstirs, -⟩ := release_spec ho hrel (idle_of_not_isHeld hh)
    exact .release hrel rfl trail_hub?_number hend hstirs
  | @causes handle use call c hstep hH howner hcycle =>
    exact .use hstep hH howner (trail_hub?_of_cycle? hcycle) rfl
      (congrArg Life.installed ((life_readCauses _ _).trans (life_setCycle _ _)))
      (causes_spec ho hH howner hcycle use).2.1
  | follow n hh =>
    exact .still rfl rfl (follow_spec ho (hv.not_released_of_handle hh) n).2.1
  | stop _ hfind hsub =>
    exact .still rfl (congrArg Life.installed (life_leaveCycle _ _ _))
      (stop_spec ho hfind hsub).2.1
  | forget _ _ _ => exact .still rfl rfl ⟨rfl, rfl, rfl, fun _ _ => rfl⟩
  | enroll _ hh hnew hnone =>
    exact .still rfl rfl (enroll_spec ho (hv.not_released_of_handle hh) hnew hnone).2

end turns

end Switchboard.Session
