import Switchboard.Proofs.Session.Fates
import Switchboard.Proofs.Session.Rest

/-!
# The cause that a handle receives

A handle for a cause, over a whole run: from the step that gave it out, through the end of its
cycle, to whatever its holder does with it afterwards.

**The end of a session** (`EndsIn`). A disconnect, a signal or the release of the state ends it,
each with a last cause of its own, or with none.

**Between two steps** (`Run.AtRest.follows_next`, `Run.AtRest.parted_next`). A step keeps a handle
following, or parts it with the last cause of its session. Once parted it stays so.

**Main statement** (`cause_of_own_session`). A handle receives the last cause of its own session and
nothing else.
-/

namespace Switchboard.Session

/-- How a step ends an installed session, and the last cause of that session. -/
inductive EndsIn (r : Run) (st : Step) (x : Serial) : Option Cause → Prop
  /-- A disconnect ends it, whatever became of its signal. -/
  | disconnected :
      st = .disconnect → (r.next st).session.cycle.number ≠ r.session.cycle.number →
      EndsIn r st x (some .cancelled)
  /-- Its own signal ends it, with the cause for which that signal ended. -/
  | signalled {cause : Cause} :
      st ≠ .disconnect → (r.next st).session.cycle.number ≠ r.session.cycle.number →
      (r.next st).signalOf x = some cause → EndsIn r st x (some cause)
  /-- It goes with the state, and no other cycle begins. -/
  | released :
      (r.next st).session.released = true →
      (r.next st).session.cycle.number = r.session.cycle.number → EndsIn r st x none

section rest

variable {r : Run} {st : Step} {owner : Nat → Option CauseHandle} {keep : Prop}
  {handle : CauseHandle} {installed? : Option Serial} {last : Option Cause} {x : Serial}

/-! ## What has come -/

theorem through_eq_filterMap (received : List (CauseHandle × Cause)) :
    through handle received = received.filterMap fun p => if p.1 = handle then some p.2 else none := by
  induction received with
  | nil => rfl
  | cons p rest ih =>
    rw [List.filterMap_cons, ← ih]
    by_cases hp : p.1 = handle
    · rw [if_pos hp, through, List.filter_cons, if_pos (decide_eq_true hp)]
      rfl
    · rw [if_neg hp, through, List.filter_cons, if_neg (by simpa using hp)]
      rfl

theorem through_answered (steps : List Step) (completions : List Completion) :
    through handle (answered steps completions) =
      heard (handleOf steps) handle (completions.filterMap causeOf) := by
  rw [through_eq_filterMap, answered, heard, List.filterMap_filterMap, List.filterMap_filterMap]
  refine congrArg (completions.filterMap ·) (funext fun c => ?_)
  cases c with
  | connected _ _ => rfl
  | disconnected _ _ => rfl
  | message _ _ => rfl
  | cause call cause? =>
    cases cause? with
    | none => exact (ite_self none).symm
    | some cause =>
      show ((handleOf steps call).map (·, cause)).bind _ =
        if handleOf steps call = some handle then some cause else none
      cases handleOf steps call with
      | none => rfl
      | some other => simp

theorem Run.AtRest.got_eq (hr : r.AtRest) (owner : Nat → Option CauseHandle) (handle : CauseHandle) :
    r.scene.got owner handle = r.receivedBy handle := by
  have hnone : r.scene.session.trail.answered = [] := by
    show r.session.completions.filterMap causeOf = []
    rw [hr.collected]
    rfl
  rw [Scene.got, hnone]
  exact List.append_nil _

theorem Run.got_next (r : Run) (st : Step) (handle : CauseHandle) :
    (r.next st).receivedBy handle = (r.played st).got (handleOf (r.steps ++ [st])) handle := by
  show through handle (_ ++ _ ++ answered (r.steps ++ [st]) _) = _
  rw [through_append, through_answered]
  rfl

/-! ## Handles not given out -/

theorem Turn.got_of_not_mem {t t' : Scene} (h : Turn st owner t t') (hv : Valid owner t)
    (hs : Signalled t.ready t.session.life t.signals) (hnew : handle ∉ t'.handles)
    (hgot : t.got owner handle = []) : t'.got owner handle = [] := by
  have hnew' : handle ∉ t.handles := fun hH => hnew (h.handles handle hH)
  have hsame : ∀ {received}, t'.taken = t.taken →
      t'.session.trail.answered = t.session.trail.answered ++ received →
      heard owner handle received = [] → t'.got owner handle = [] := by
    intro received ht ha hheard
    rw [got_of_answered ht ha, hgot, hheard]
    rfl
  cases h.passage hv hs with
  | still ht _ hs =>
    exact hsame ht (hs.answered.trans (List.append_nil _).symm) rfl
  | turn _ ht _ _ hk _ hs =>
    exact hsame ht hs.answered (hv.orderly.heard_none hk (fun _ hH => absurd hH hnew') _)
  | release _ ht hk _ hs =>
    exact hsame ht hs.answered (hv.orderly.heard_none hk (fun _ hH => absurd hH hnew') _)
  | @use other use call g _ hgiven _ hk ht _ hs =>
    obtain ⟨hheard, -, -⟩ := hv.orderly.use_spec hk use call handle
    have hne : other ≠ handle := fun heq => hnew' (heq ▸ hgiven)
    rw [Scene.got, List.append_eq_nil_iff] at hgot
    rw [Scene.got, ht, hs.answered, Trail.answer, heard_append, hheard, through_append,
      through_map_of_ne hne, hgot.1]
    exact (List.append_nil _).trans hgot.2

theorem Turns.got_of_not_mem {t t' : Scene} (h : Turns st owner t t') (hv : Valid owner t)
    (hs : Signalled t.ready t.session.life t.signals) (hnew : handle ∉ t'.handles)
    (hgot : t.got owner handle = []) : t'.got owner handle = [] := by
  induction h with
  | refl => exact hgot
  | tail hturns hturn ih =>
    exact hturn.got_of_not_mem (Turns.valid hturns hv) (Turns.signalled hturns hv.accounted hs) hnew
      (ih fun hH => hnew (hturn.handles handle hH))

theorem receivedBy_of_not_mem (settings : Settings) (players : List Player)
    (catalog : List Packet.Entry) (steps : List Step) :
    let r := run settings players catalog steps
    handle ∉ r.handles → r.receivedBy handle = [] := by
  have hextend : ∀ (steps : List Step) (r : Run), r.AtRest →
      (handle ∉ r.handles → r.receivedBy handle = []) →
      handle ∉ (r.extend steps).handles → (r.extend steps).receivedBy handle = [] := by
    intro steps
    induction steps with
    | nil => exact fun r _ h => h
    | cons st steps ih =>
      intro r hr h
      refine ih _ (hr.next st) fun hnew => ?_
      rw [Run.got_next]
      refine (hr.goes st).turns.got_of_not_mem (hr.valid.append [st]) hr.signalled hnew ?_
      rw [hr.got_eq]
      exact h fun hH => hnew (List.mem_append_left _ hH)
  exact hextend steps _ (run_atRest settings players catalog []) fun _ => rfl

/-! ## From one step to the next -/

theorem Run.AtRest.got_next (hr : r.AtRest) (st : Step) (owner : Nat → Option CauseHandle) :
    (r.next st).scene.got owner handle = (r.played st).got (handleOf (r.steps ++ [st])) handle :=
  ((hr.next st).got_eq owner handle).trans (r.got_next st handle)

/-- Between two steps it does not matter who made which call. -/
theorem Run.AtRest.follows_owner (hr : r.AtRest) (hf : Follows owner keep handle installed? r.scene)
    (owner' : Nat → Option CauseHandle) : Follows owner' keep handle installed? r.scene :=
  { hf with got := (hr.got_eq owner' handle).trans ((hr.got_eq owner handle).symm.trans hf.got) }

theorem Run.AtRest.parted_owner (hr : r.AtRest) (hp : Parted owner keep handle last r.scene)
    (owner' : Nat → Option CauseHandle) : Parted owner' keep handle last r.scene := by
  have hgot := (hr.got_eq owner' handle).trans (hr.got_eq owner handle).symm
  exact ⟨hp.given, hp.past, hgot ▸ hp.got, hgot ▸ hp.kept⟩

theorem Run.AtRest.follows_of_played (hr : r.AtRest)
    (hf : Follows (handleOf (r.steps ++ [st])) keep handle installed? (r.played st)) :
    Follows owner keep handle installed? (r.next st).scene :=
  ⟨hf.given, hf.current, hf.held, hf.installed, (hr.got_next st owner).trans hf.got, hf.kept⟩

theorem Run.AtRest.parted_of_played (hr : r.AtRest)
    (hp : Parted (handleOf (r.steps ++ [st])) keep handle last (r.played st)) :
    Parted owner keep handle last (r.next st).scene := by
  have hgot : (r.next st).scene.got owner handle = _ := hr.got_next st owner
  exact ⟨hp.given, hp.past, hgot ▸ hp.got, hgot ▸ hp.kept⟩

/-- A disconnect comes before the watches, so it parts a handle with its own cause. -/
theorem disconnect_parts {t : Scene} (hv : Valid owner t)
    (hs : Signalled t.ready t.session.life t.signals) (hr : t.ready = []) (call : Nat)
    (hf : Follows owner keep handle (some x) t) :
    Parted owner keep handle (some .cancelled) (t.on (t.session.disconnect call).1) ∧
      Explains .disconnect handle (some x) (t.on (t.session.disconnect call).1)
        (some .cancelled) := by
  obtain ⟨s, hleave, hlife, htrail, hturns, -⟩ :=
    disconnect_leaves hv hr (Eq.refl Step.disconnect) call hf.installed
  obtain ⟨h', hend, -, hstirs, -⟩ := turnCycle_spec hv.orderly hf.held (some .cancelled) none
  rw [← htrail] at hstirs
  obtain ⟨hlt, hparted⟩ : handle.cycle < (t.on s).session.trail.number ∧
      Parted owner keep handle (some .cancelled) (t.on s) :=
    hf.turn hv.orderly trail_hub?_number hend hstirs hf.given rfl
  have hv' := hleave.valid hv
  have hs' := hleave.signalled hv.accounted hs
  have hgone : Gone x (t.on s).session.life := by
    refine ⟨(hv.accounted.serial x hf.installed).2.trans hleave.lastSerial_le, fun h => ?_⟩
    rw [show (t.on s).session.life = t.session.life.leave x from hlife] at h
    cases h
  have hexplains : Explains .disconnect handle (some x) (t.on s) (some .cancelled) :=
    ⟨hlt, x, rfl, hgone, Or.inl ⟨rfl, rfl⟩⟩
  exact ⟨Turns.parted hturns hv' hs' (fun _ h => nomatch h) hparted,
    Turns.explains hturns hv' hs' hexplains⟩

theorem Run.played_disconnect (r : Run) :
    r.played .disconnect =
      r.scene.on (if r.session.hasHandle then (r.session.disconnect r.steps.length).1
        else r.session) := by
  show r.scene.after (r.session.byHolder _) none = _
  rw [byHolder]
  split <;> exact Scene.after_plain _ _

theorem Run.AtRest.follows_played (hr : r.AtRest)
    (hkeep : keep → ∀ use, st = .causes handle use → use ≠ .abandon ∧ use ≠ .cancel)
    (hf : Follows owner keep handle installed? r.scene) :
    Follows (handleOf (r.steps ++ [st])) keep handle installed? (r.played st) ∨
      ∃ last, Parted (handleOf (r.steps ++ [st])) keep handle last (r.played st) ∧
        Explains st handle installed? (r.played st) last ∧
        (st = .disconnect → ∀ cause, last = some cause → cause = .cancelled) := by
  have hv := hr.valid.append [st]
  have hf' := hr.follows_owner hf (handleOf (r.steps ++ [st]))
  by_cases hst : st = .disconnect ∧ ∃ x, installed? = some x
  · obtain ⟨rfl, x, rfl⟩ := hst
    rw [Run.played_disconnect]
    split
    · obtain ⟨hparted, hexplains⟩ := disconnect_parts hv hr.signalled rfl r.steps.length hf'
      exact Or.inr ⟨_, hparted, hexplains, fun _ cause h => (Option.some.inj h).symm⟩
    · exact Or.inl hf'
  · refine ((hr.goes st).turns.follows hv hr.signalled hkeep hf').imp_right ?_
    rintro ⟨last, hp, he⟩
    refine ⟨last, hp, he, fun hd cause hlast => absurd ⟨hd, ?_⟩ hst⟩
    subst hlast
    obtain ⟨-, x, hi, -⟩ := he
    exact ⟨x, hi⟩

/-- A step that keeps a handle following leaves its session installed, and one that parts it ends
the session, if there was one. -/
theorem Run.AtRest.follows_next (hr : r.AtRest)
    (hkeep : keep → ∀ use, st = .causes handle use → use ≠ .abandon ∧ use ≠ .cancel)
    (hf : Follows owner keep handle installed? r.scene) :
    Follows owner keep handle installed? (r.next st).scene ∨
      ∃ last, Parted owner keep handle last (r.next st).scene ∧
        (installed? = none → last = none) ∧
        ∀ x, installed? = some x → Gone x (r.next st).session.life ∧ EndsIn r st x last := by
  refine (hr.follows_played hkeep hf).imp hr.follows_of_played ?_
  rintro ⟨last, hp, he, hdisconnect⟩
  refine ⟨last, hr.parted_of_played hp, fun hnone => ?_, fun x hx => ?_⟩
  · cases last with
    | none => rfl
    | some cause =>
      obtain ⟨-, x, hi, -⟩ := he
      rw [hnone] at hi
      cases hi
  · subst hx
    cases last with
    | none =>
      obtain ⟨hcurrent, hreleased⟩ := he.resolve_left nofun
      have hle := (hr.valid.accounted.serial x hf.installed).2.trans (hr.goes st).turns.lastSerial_le
      refine ⟨⟨hle, ?_⟩, .released hreleased (hcurrent.symm.trans hf.current)⟩
      have hnone := (hr.next st).valid.installed_eq_none hreleased
      rw [show (r.next st).session.life.installed = none from hnone]
      exact nofun
    | some cause =>
      obtain ⟨hlt, y, hi, hgone, hwhy⟩ := he
      obtain rfl := Option.some.inj hi
      have hnumber : (r.next st).session.cycle.number ≠ r.session.cycle.number := by
        have hcurrent : handle.cycle = r.session.cycle.number := hf.current
        rw [← hcurrent]
        exact Nat.ne_of_gt hlt
      refine ⟨hgone, ?_⟩
      by_cases hst : st = .disconnect
      · rw [hdisconnect hst cause rfl]
        exact .disconnected hst hnumber
      · exact .signalled hst hnumber (hwhy.resolve_left fun h => hst h.1)

theorem Run.AtRest.parted_next (hr : r.AtRest) (hkeep : keep → st ≠ .causes handle .abandon)
    (hp : Parted owner keep handle last r.scene) :
    Parted owner keep handle last (r.next st).scene :=
  hr.parted_of_played ((hr.goes st).turns.parted (hr.valid.append [st]) hr.signalled hkeep
    (hr.parted_owner hp _))

/-! ## Runs -/

theorem Run.AtRest.parted_extend (hr : r.AtRest) (steps : List Step)
    (hkeep : keep → .causes handle .abandon ∉ steps) (hp : Parted owner keep handle last r.scene) :
    Parted owner keep handle last (r.extend steps).scene := by
  induction steps generalizing r with
  | nil => exact hp
  | cons st steps ih =>
    refine ih (hr.next st) (fun hk h => hkeep hk (List.mem_cons_of_mem _ h)) ?_
    exact hr.parted_next (fun hk h => hkeep hk (h ▸ List.mem_cons_self ..)) hp

theorem Run.AtRest.gone_extend (hr : r.AtRest) (steps : List Step) (hg : Gone x r.session.life) :
    Gone x (r.extend steps).session.life := by
  induction steps generalizing r with
  | nil => exact hg
  | cons st steps ih => exact ih (hr.next st) ((hr.goes st).turns.gone hg)

/-- After some steps a handle follows its cycle still, or its session is gone. -/
theorem Run.AtRest.follows_extend (hr : r.AtRest) (steps : List Step)
    (hkeep : keep → ∀ use, .causes handle use ∈ steps → use ≠ .abandon ∧ use ≠ .cancel)
    (hf : Follows owner keep handle installed? r.scene) :
    Follows owner keep handle installed? (r.extend steps).scene ∨
      ∃ last, Parted owner keep handle last (r.extend steps).scene ∧
        (installed? = none → last = none) ∧
        ∀ x, installed? = some x → Gone x (r.extend steps).session.life := by
  induction steps generalizing r with
  | nil => exact Or.inl hf
  | cons st steps ih =>
    rcases hr.follows_next (fun hk use hst => hkeep hk use (hst ▸ List.mem_cons_self ..)) hf with
      hf | ⟨last, hp, hnone, hgone⟩
    · exact ih (hr.next st) (fun hk use h => hkeep hk use (List.mem_cons_of_mem _ h)) hf
    · refine Or.inr ⟨last, ?_, hnone, fun x hx => (hr.next st).gone_extend steps (hgone x hx).1⟩
      refine (hr.next st).parted_extend steps (fun hk h => ?_) hp
      exact (hkeep hk _ (List.mem_cons_of_mem _ h)).1 rfl

/-! ## The holder's last look -/

/-- Draining a handle of a cycle that has ended gives what is there, and nothing will follow. -/
theorem Run.AtRest.drain_eq (hr : r.AtRest) (hgiven : handle ∈ r.handles)
    (hpast : handle.cycle < r.session.trail.number ∨ r.session.released = true) :
    (r.session.drainCauses handle).2 = ⟨r.session.trail.unread handle, true⟩ := by
  have hknown : ∃ h, r.session.trail.hub? handle.cycle = some h ∧ handle.id ≤ h.lastId :=
    hr.valid.orderly.known handle hgiven
  obtain ⟨h, hk, -⟩ := hknown
  obtain ⟨c, hc : r.session.cycle? handle.cycle = some c, hch⟩ := Option.map_eq_some_iff.mp hk
  have hresult : (r.session.drainCauses handle).2 = (h.drain handle.id).result := by
    rw [drainCauses, onCauses, hc, ← hch]
  have hl := hr.valid.orderly.calm _ h hk
  rw [hresult, Trail.unread, Trail.slot_of_hub hk]
  cases hp : h.pipeline? handle.id with
  | none =>
    have hended : h.tryReceive handle.id = ⟨h, .ended, [], []⟩ := by rw [Hub.tryReceive, hp]
    rw [Hub.drain, Hub.drainUpTo, hended]
    rfl
  | some p =>
    have hshut := hr.valid.orderly.shut hpast ((Trail.slot_of_hub hk _).trans hp)
    rw [Pipeline.isOpen, Bool.not_eq_false'] at hshut
    obtain ⟨-, -, hdrained, -⟩ := Hub.Calm.drainUpTo_at (h.backlog handle.id + 1) []
      (r := ⟨h, (), [], []⟩) hl hp (Nat.lt_succ_of_le (Nat.le_of_eq (hl.backlog_eq hp).symm))
    rw [Hub.drain, hdrained, hshut]
    rfl

/-! ## A new handle -/

theorem Run.AtRest.follows_of_subscribe (hr : r.AtRest) {n : Nat}
    (hunknown : handle ∉ r.handles → r.receivedBy handle = [])
    (hgive : (r.next (.subscribeCauses n)).handles = r.handles ++ [handle]) :
    Follows owner keep handle r.session.installed (r.next (.subscribeCauses n)).scene := by
  have hact : (r.next (.subscribeCauses n)).handles = r.handles ++
      (r.session.byHolder ⟨(r.session.subscribeCauses n).1,
        some (r.session.subscribeCauses n).2, []⟩).handle.toList := rfl
  have hh : r.session.hasHandle = true := by
    by_contra hno
    rw [hact, byHolder, if_neg hno] at hgive
    exact absurd (List.append_cancel_left hgive) nofun
  have hnext : r.next (.subscribeCauses n) =
      { session := (r.session.subscribeCauses n).1.collect.1
        steps := r.steps ++ [.subscribeCauses n]
        handles := r.handles ++ [(r.session.subscribeCauses n).2]
        signals := r.signals ++ []
        received := r.received ++ [] ++ answered (r.steps ++ [.subscribeCauses n])
          r.session.completions } := by
    rw [Run.next, Step.act, byHolder, if_pos hh]
    rfl
  have hhandle : handle = (r.session.subscribeCauses n).2 := by
    rw [hnext] at hgive
    exact (List.singleton_inj.mp (List.append_cancel_left hgive)).symm
  have hreleased := hr.valid.not_released_of_handle hh
  have hk := trail_hub?_number (s := r.session)
  obtain ⟨hgiven, htrail⟩ := subscribeCauses_spec (s := r.session) hr.valid.orderly hreleased n
  have hat : handle = ⟨r.session.cycle.number, r.session.cycle.disconnects.lastId + 1⟩ :=
    hhandle.trans hgiven
  -- The name is new, so nothing can have come through the handle before.
  have hnew : handle ∉ r.handles := by
    intro hmem
    refine (hr.valid.orderly.apart_next hk).2 handle hmem ?_
    rw [hat]
    rfl
  have hslot : (r.next (.subscribeCauses n)).session.trail.slot handle.cycle handle.id =
      some (.new n) := by
    rw [hnext, hat]
    show (r.session.subscribeCauses n).1.trail.slot _ _ = _
    rw [htrail, slot_register hk (hr.valid.orderly.calm _ _ hk).sound]
    exact if_pos ⟨rfl, rfl⟩
  constructor
  case given =>
    show handle ∈ (r.next (.subscribeCauses n)).handles
    rw [hgive]
    exact List.mem_append_right _ (List.mem_singleton_self handle)
  case current =>
    rw [hnext, hat]
    rfl
  case held =>
    rw [hnext]
    exact hreleased
  case installed =>
    rw [hnext]
    rfl
  case kept => exact fun _ => ⟨_, hslot, rfl⟩
  case got =>
    rw [(hr.next _).got_eq, Run.receivedBy, hnext, hr.collected, through_append, through_append]
    show r.receivedBy handle ++ [] ++ [] = []
    rw [hunknown hnew]
    rfl

/-! ## The cause received -/

theorem Run.AtRest.received_of_parted (hr : r.AtRest) (hp : Parted owner keep handle last r.scene) :
    r.receivedBy handle <+: last.toList ∧
      (keep → ∃ values, (r.session.drainCauses handle).2 = ⟨values, true⟩ ∧
        r.receivedBy handle ++ values = last.toList) := by
  rw [← hr.got_eq owner]
  refine ⟨(List.prefix_append _ _).trans hp.got, fun hk => ?_⟩
  obtain ⟨p, hslot, hwhole⟩ := hp.kept hk
  refine ⟨p.unread, ?_, hwhole⟩
  rw [hr.drain_eq hp.given hp.past]
  exact congrArg (Hub.Drained.mk · true) (Trail.unread_of_slot hslot)

/-- The cause that a handle receives, once the session has ended that was installed when it was
given out. -/
theorem Run.AtRest.received_of_ended (hr : r.AtRest)
    (hf : ∀ keep, Follows owner keep handle (some x) r.scene) (during : List Step) (st : Step)
    (later : List Step) (hi : (r.extend during).session.installed = some x)
    (hleft : (r.extend (during ++ [st])).session.installed ≠ some x) :
    ∃ last, EndsIn (r.extend during) st x last ∧
      (r.extend (during ++ st :: later)).receivedBy handle <+: last.toList ∧
      (.causes handle .cancel ∉ during ++ [st] → .causes handle .abandon ∉ during ++ st :: later →
        ∃ values, ((r.extend (during ++ st :: later)).session.drainCauses handle).2 = ⟨values, true⟩ ∧
          (r.extend (during ++ st :: later)).receivedBy handle ++ values = last.toList) := by
  set keep : Prop := .causes handle .cancel ∉ during ++ [st] ∧
    .causes handle .abandon ∉ during ++ st :: later with hkeepdef
  have hkeep : keep → ∀ use, .causes handle use ∈ during ++ [st] → use ≠ .abandon ∧ use ≠ .cancel := by
    rintro ⟨hcancel, habandon⟩ use hmem
    have hmem' : .causes handle use ∈ during ++ st :: later := by
      rw [List.append_cons]
      exact List.mem_append_left _ hmem
    exact ⟨fun h => habandon (h ▸ hmem'), fun h => hcancel (h ▸ hmem)⟩
  have hr' := hr.extend during
  rw [Run.extend_append] at hleft
  rw [Run.extend_append]
  rcases hr.follows_extend during (fun hk use h => hkeep hk use (List.mem_append_left _ h)) (hf keep)
    with hf' | ⟨last, -, -, hgone⟩
  · have hstep : keep → ∀ use, st = .causes handle use → use ≠ .abandon ∧ use ≠ .cancel :=
      fun hk use h => hkeep hk use (List.mem_append_right _ (h ▸ List.mem_singleton_self _))
    rcases hr'.follows_next hstep hf' with hf' | ⟨last, hp, -, hends⟩
    · exact absurd hf'.installed hleft
    · have hp' := (hr'.next st).parted_extend later (fun hk h => by
        exact hk.2 (List.mem_append_right _ (List.mem_cons_of_mem _ h))) hp
      obtain ⟨hpre, hwhole⟩ := ((hr'.next st).extend later).received_of_parted hp'
      exact ⟨last, (hends x rfl).2, hpre, fun hcancel habandon => hwhole ⟨hcancel, habandon⟩⟩
  · exact absurd hi (hgone x rfl).2

/-- **A handle for a cause receives the last cause of its own session, and nothing else.**

Take any run, any step in it that gives out a handle, and whatever happens after that step.

If a session is installed when the handle is given out, nothing comes through it while that session
is there. Once the session has ended, what has come is its last cause or nothing. If the holder did
not cancel the handle before that and has not dropped it, the cause has come or is there to be
taken, once, and after it the handle is closed.

If nothing is installed, nothing ever comes through the handle, and it is closed as soon as a
session is installed or the state is released. -/
theorem cause_of_own_session (settings : Settings) (players : List Player)
    (catalog : List Packet.Entry) (before after : List Step) (n : Nat) (handle : CauseHandle) :
    let r₀ := run settings players catalog before
    let at' := fun steps => run settings players catalog (before ++ .subscribeCauses n :: steps)
    (at' []).handles = r₀.handles ++ [handle] →
    match r₀.session.installed with
    | some x =>
      ((at' after).session.installed = some x → (at' after).receivedBy handle = []) ∧
      ∀ during st later, after = during ++ st :: later →
        (at' during).session.installed = some x →
        (at' (during ++ [st])).session.installed ≠ some x →
        ∃ last, EndsIn (at' during) st x last ∧
          (at' after).receivedBy handle <+: last.toList ∧
          (.causes handle .cancel ∉ during ++ [st] → .causes handle .abandon ∉ after →
            ∃ values, ((at' after).session.drainCauses handle).2 = ⟨values, true⟩ ∧
              (at' after).receivedBy handle ++ values = last.toList)
    | none =>
      (at' after).receivedBy handle = [] ∧
      ∀ during later, after = during ++ later →
        (at' during).session.isConnected = true ∨ (at' during).session.released = true →
        ((at' after).session.drainCauses handle).2 = ⟨[], true⟩ := by
  intro r₀ at' hgive
  set r₁ := r₀.next (.subscribeCauses n) with hr₁def
  have hat : ∀ steps, at' steps = r₁.extend steps :=
    fun steps => run_append settings players catalog before _
  have hr₀ : r₀.AtRest := run_atRest settings players catalog before
  have hr₁ : r₁.AtRest := hr₀.next _
  have hfollows : ∀ keep, Follows (fun _ => none) keep handle r₀.session.installed r₁.scene := by
    intro keep
    rw [hat] at hgive
    exact hr₀.follows_of_subscribe (receivedBy_of_not_mem settings players catalog before) hgive
  simp only [hat]
  have hrest := hr₁.extend after
  cases hi₀ : r₀.session.installed with
  | some x =>
    rw [hi₀] at hfollows
    refine ⟨fun hi => ?_, ?_⟩
    · rcases hr₁.follows_extend after (fun h => h.elim) (hfollows False) with hf | ⟨-, -, -, hgone⟩
      · rw [← hrest.got_eq fun _ => none]
        exact hf.got
      · exact absurd hi (hgone x rfl).2
    · rintro during st later rfl hi hleft
      exact hr₁.received_of_ended hfollows during st later hi hleft
  | none =>
    rw [hi₀] at hfollows
    refine ⟨?_, ?_⟩
    · rcases hr₁.follows_extend after (fun h => h.elim) (hfollows False) with hf | ⟨last, hp, hnone, -⟩
      · rw [← hrest.got_eq fun _ => none]
        exact hf.got
      · have hpre := (hrest.received_of_parted hp).1
        rw [hnone rfl] at hpre
        exact List.prefix_nil.mp hpre
    · rintro during later rfl hended
      have hr' := hr₁.extend during
      rcases hr₁.follows_extend during (fun h => h.elim) (hfollows False) with
        hf | ⟨last, hp, hnone, -⟩
      · rcases hended with hconnected | hreleased
        · exact absurd hf.installed (isConnected_iff.mp hconnected)
        · rw [show (r₁.extend during).session.released = false from hf.held] at hreleased
          cases hreleased
      · rw [Run.extend_append] at hrest ⊢
        have hp' := hr'.parted_extend later (fun h => h.elim) hp
        rw [hrest.drain_eq hp'.given hp'.past]
        have hgot := hp'.got
        rw [hnone rfl] at hgot
        exact congrArg (Hub.Drained.mk · true) (List.append_eq_nil_iff.mp (List.prefix_nil.mp hgot)).2

/-- A handle given out while a session was installed, which is then terminated. The next session,
which is disconnected, has a cause of its own. -/
theorem cause_of_own_session_terminated :
    let r := run .standard [] [] ([.connect (.forServer "s")] ++ .subscribeCauses 1 ::
      [.terminate (.closed "reset"), .connect (.forServer "s"), .disconnect])
    ∃ values, (r.session.drainCauses ⟨1, 1⟩).2 = ⟨values, true⟩ ∧
      r.receivedBy ⟨1, 1⟩ ++ values = [.closed "reset"] := by
  intro r
  have hinstalled : (run .standard [] [] [.connect (.forServer "s")]).session.installed = some 1 := by
    decide +kernel
  have h := cause_of_own_session .standard [] [] [.connect (.forServer "s")]
    [.terminate (.closed "reset"), .connect (.forServer "s"), .disconnect] 1 ⟨1, 1⟩
    (by decide +kernel)
  simp only [hinstalled] at h
  obtain ⟨last, hends, -, hwhole⟩ := h.2 [] (.terminate (.closed "reset")) _ rfl
    (by decide +kernel) (by decide +kernel)
  obtain ⟨values, hdrain, hall⟩ := hwhole nofun nofun
  refine ⟨values, hdrain, hall.trans ?_⟩
  cases hends with
  | disconnected hst _ => exact absurd hst nofun
  | @signalled cause _ _ hsignal =>
    have hcause : some cause = some (Cause.closed "reset") := hsignal.symm.trans (by decide +kernel)
    exact congrArg Option.toList hcause
  | released hreleased _ => exact absurd hreleased (by decide +kernel)

end rest

end Switchboard.Session
