import Switchboard.Proofs.Session.Valid

/-!
# Settling

Every operation ends with a settle, which takes some turns of its own: the last holder may have let
go, and watches may go on.

**At rest.** After a settle no watch can go on (`Quiet`), and the state is released unless somebody
holds it (`Kept`).
-/

namespace Switchboard.Session

/-- No watch can go on. -/
def Quiet (s : Session) : Prop := ∀ w ∈ s.watches, isReady w = false

/-- The state is released unless somebody holds it. -/
def Kept (s : Session) : Prop := s.released = true ∨ s.isHeld = true

/-- Some turns, with which the state is at rest again if it was before. -/
structure Goes (step : Step) (owner : Nat → Option CauseHandle) (t t' : Scene) : Prop where
  turns : Turns step owner t t'
  ready : t'.ready = []
  quiet : Quiet t.session → Quiet t'.session
  kept : Kept t.session → Kept t'.session

section settling

variable {step : Step} {owner : Nat → Option CauseHandle} {t t' t'' : Scene}

theorem Goes.refl (hr : t.ready = []) : Goes step owner t t := ⟨.refl, hr, fun h => h, fun h => h⟩

theorem Goes.trans (h : Goes step owner t t') (h' : Goes step owner t' t'') :
    Goes step owner t t'' :=
  ⟨h.turns.trans h'.turns, h'.ready, fun hq => h'.quiet (h.quiet hq),
    fun hk => h'.kept (h.kept hk)⟩

theorem Goes.aside {s : Session} (hr : t.ready = []) (hl : s.life = t.session.life)
    (ht : s.trail = t.session.trail) (hh : s.isHeld = t.session.isHeld) :
    Goes step owner t (t.on s) := by
  refine ⟨.single (.aside hl ht), hr, fun hq w hw => ?_, fun hk => ?_⟩
  · rw [show (t.on s).session.watches = t.session.watches from congrArg Life.watches hl] at hw
    exact hq w hw
  · exact hk.imp (fun h => (congrArg Life.released hl).trans h) fun h => hh.trans h

/-! ## Messages -/

theorem any_active {s : Session} {x : Serial} :
    s.active.any (·.session = x) = true ↔ s.installed = some x := by
  cases hs : s.active with
  | none => simp [installed, hs]
  | some a => simp [installed, hs]

theorem announce_turn (hg : t.session.messages.Good) (who : LifecycleCall) (m : Message) :
    Turn step owner t (t.on (t.session.announce who m).1) := by
  have htrail := trail_announce t.session who m
  obtain ⟨hub, ⟨hp, hl⟩ | ⟨hp, hl⟩⟩ := life_announce hg who m
  · exact .mail hp hl htrail
  · exact .mail hp hl htrail

/-- Only the message of a connect starts a watch. -/
theorem watches_announce {s : Session} (hg : s.messages.Good) {who : LifecycleCall} (m : Message)
    (hne : ∀ call x, who ≠ .connect call x) : (s.announce who m).1.watches = s.watches := by
  have hstart : (fun w : Watch => w.start who) = id := by
    funext w
    cases who with
    | connect call x => exact absurd rfl (hne call x)
    | disconnect call fault => rfl
    | termination x => rfl
  obtain ⟨hub, ⟨-, hl⟩ | ⟨-, hl⟩⟩ := life_announce hg who m
  · refine (congrArg Life.watches hl).trans ?_
    show s.watches.map (fun w => w.start who) = s.watches
    rw [hstart]
    exact List.map_id _
  · exact congrArg Life.watches hl

/-! ## Watches -/

theorem endSession_of_ne {s : Session} {x : Serial} (h : s.installed ≠ some x) (cause : Cause) :
    s.endSession x cause = s :=
  if_neg fun hany => h (any_active.mp hany)

/-- A watch that goes on ends its session, if that one is installed. -/
theorem endSession_turns (step : Step) (hv : Valid owner t) {w : Watch} {rest : List Watch} {cause : Cause}
    (hready : t.ready = w :: rest) (hf : w.fired = some cause) :
    Turns step owner t
        { t with session := t.session.endSession w.session cause, ready := rest } ∧
      (Quiet t.session → Quiet (t.session.endSession w.session cause)) := by
  by_cases hi : t.session.installed = some w.session
  · set s₀ : Session := (t.session.teardown w.session).1.record
      (·.teardown (t.session.teardown w.session).2) with hs₀
    set s₁ : Session := (s₀.turnCycle (some cause) none).record (·.disconnect cause) with hs₁
    have hend : t.session.endSession w.session cause =
        (s₁.announce (.termination w.session) (.connectionClosed cause)).1 :=
      if_pos (any_active.mpr hi)
    have hlife : s₁.life = t.session.life.leave w.session :=
      life_turnCycle s₀ (some cause) none
    have hwatch : Turn step owner t { t with session := s₁, ready := rest } :=
      @Turn.watch step owner t s₁ s₀ w rest cause hready hf hi hlife rfl rfl
    have hgood : s₁.messages.Good := (hwatch.valid hv).accounted.good
    rw [hend]
    refine ⟨(Relation.ReflTransGen.single hwatch).tail (announce_turn hgood _ _),
      fun hq v hvmem => ?_⟩
    rw [watches_announce hgood _ (fun _ _ => LifecycleCall.noConfusion),
      show s₁.watches = t.session.watches.map (·.fire w.session .signalLost) from
        congrArg Life.watches hlife] at hvmem
    obtain ⟨u, hu, rfl⟩ := List.mem_map.mp hvmem
    -- There is one watch over each session, and the one over this session has stepped forward.
    have hne : u.session ≠ w.session := by
      have hd := hv.accounted.distinct
      rw [hready, List.cons_append, List.map_cons, List.nodup_cons] at hd
      intro heq
      exact hd.1 (heq ▸ List.mem_map_of_mem (List.mem_append_right _ hu))
    rw [Watch.fire_of_ne hne]
    exact hq u hu
  · rw [endSession_of_ne hi]
    exact ⟨.single (.stale hready hi), fun hq => hq⟩

theorem endSessions_turns (step : Step) (ready : List Watch) (hv : Valid owner t)
    (hready : t.ready = ready) :
    Turns step owner t
        { t with
          session := ready.foldl (fun s w =>
            match w.fired with
            | some cause => s.endSession w.session cause
            | none => s) t.session
          ready := [] } ∧
      (Quiet t.session → Quiet (ready.foldl (fun s w =>
        match w.fired with
        | some cause => s.endSession w.session cause
        | none => s) t.session)) := by
  induction ready generalizing t with
  | nil =>
    obtain ⟨s, ready, handles, signals, taken⟩ := t
    cases hready
    exact ⟨.refl, fun hq => hq⟩
  | cons w rest ih =>
    have hgoing := hv.accounted.going w (hready ▸ List.mem_cons_self ..)
    rw [isReady, Bool.and_eq_true] at hgoing
    obtain ⟨cause, hf⟩ := Option.isSome_iff_exists.mp hgoing.2
    obtain ⟨hturns, hquiet⟩ := endSession_turns step hv hready hf
    obtain ⟨hturns', hquiet'⟩ := ih (hturns.valid hv) rfl
    rw [List.foldl_cons]
    simp only [hf]
    exact ⟨hturns.trans hturns', fun hq => hquiet' (hquiet hq)⟩

theorem runWatches_turns (step : Step) (hv : Valid owner t) (hready : t.ready = []) :
    Turns step owner t (t.on t.session.runWatches) ∧ Quiet t.session.runWatches := by
  have hgather : Turn step owner t _ := .gather hready
  obtain ⟨hturns, hquiet⟩ := endSessions_turns step (t.session.watches.filter isReady)
    (hgather.valid hv) rfl
  have hscene : t.on t.session.runWatches = { t with
      session := t.session.runWatches
      ready := [] } := by
    rw [Scene.on, ← hready]
  rw [hscene]
  refine ⟨(Relation.ReflTransGen.single hgather).trans hturns, hquiet fun w hw => ?_⟩
  simpa using (List.mem_filter.mp hw).2

/-! ## Settling -/

theorem releaseIfUnheld_turns (step : Step) (owner : Nat → Option CauseHandle)
    (hready : t.ready = []) :
    Turns step owner t (t.on t.session.releaseIfUnheld) ∧
      (Quiet t.session → Quiet t.session.releaseIfUnheld) ∧ Kept t.session.releaseIfUnheld := by
  unfold releaseIfUnheld
  split
  · rename_i h
    rw [Bool.or_eq_true] at h
    exact ⟨.refl, fun hq => hq, h⟩
  · rename_i h
    rw [Bool.or_eq_true, not_or, Bool.not_eq_true, Bool.not_eq_true] at h
    have hlife := life_release t.session
    refine ⟨.single (.release hready h.1 h.2), fun _ w hw => ?_, Or.inl ?_⟩
    · rw [show t.session.release.watches = [] from congrArg Life.watches hlife] at hw
      cases hw
    · exact congrArg Life.released hlife

/-- **A settle takes some turns, and then the state is at rest.** -/
theorem settle_turns (step : Step) (hv : Valid owner t) (hready : t.ready = []) :
    Turns step owner t (t.on t.session.settle) ∧ Quiet t.session.settle ∧ Kept t.session.settle := by
  have h₁ := (releaseIfUnheld_turns step owner hready).1
  have h₂ := runWatches_turns step (h₁.valid hv) hready
  have h₃ := releaseIfUnheld_turns step owner
    (t := t.on t.session.releaseIfUnheld.runWatches) hready
  exact ⟨(h₁.trans h₂.1).trans h₃.1, h₃.2.1 h₂.2, h₃.2.2⟩

theorem releaseIfUnheld_of_kept {s : Session} (hk : Kept s) : s.releaseIfUnheld = s :=
  if_pos (Bool.or_eq_true_iff.mpr hk)

theorem runWatches_of_quiet {s : Session} (hq : Quiet s) : s.runWatches = s := by
  have hready : s.watches.filter isReady = [] :=
    List.filter_eq_nil_iff.mpr fun w hw => by rw [hq w hw]; exact Bool.false_ne_true
  have hwaiting : s.watches.filter (!isReady ·) = s.watches :=
    List.filter_eq_self.mpr fun w hw => by rw [hq w hw]; rfl
  show (s.watches.filter isReady).foldl _ { s with watches := s.watches.filter (!isReady ·) } = s
  rw [hready, hwaiting]
  rfl

/-- Where no watch can go on, all that a settle can do is the release. -/
theorem settle_of_quiet {s : Session} (hq : Quiet s) : s.settle = s.releaseIfUnheld := by
  obtain ⟨-, hquiet, hkept⟩ := releaseIfUnheld_turns .disown (fun _ => none)
    (t := ⟨s, [], [], [], []⟩) rfl
  rw [settle, runWatches_of_quiet (hquiet hq), releaseIfUnheld_of_kept hkept]

theorem Goes.settle (hv : Valid owner t) (h : Turns step owner t t') (hready : t'.ready = []) :
    Goes step owner t (t'.on t'.session.settle) := by
  obtain ⟨hturns, hquiet, hkept⟩ := settle_turns step (h.valid hv) hready
  exact ⟨h.trans hturns, hready, fun _ => hquiet, fun _ => hkept⟩

end settling

end Switchboard.Session
