import Mathlib.Data.List.Induction
import Switchboard.Proofs.Session.Fates
import Switchboard.Proofs.Session.Rest

/-!
# The end of an installed session

A session that is installed stays so until something that concerns it ends it.

**Endings** (`Ending`). A disconnect that found it installed, its own signal, or the release of the
state. The signals of other sessions do not count, whenever they end and whenever their watches
learn of it.

**From one step to the next** (`Turns.stays`, `Run.AtRest.stays_next`). What happens in a step leaves
the session installed or is one of the three.

**Main statement** (`ends_are_attributed`).
-/

namespace Switchboard.Session

/-! ## Turns -/

/-- What can have ended the session `x` by the time of a scene. -/
def MayEnd (step : Step) (x : Serial) (t : Scene) : Prop :=
  step = .disconnect ∨ (∃ cause, t.signals.lookup x = some cause) ∨ t.session.released = true

section turns

variable {step : Step} {owner : Nat → Option CauseHandle} {t t' : Scene} {x : Serial}

theorem Turn.mayEnd (h : Turn step owner t t') (hv : Valid owner t)
    (hs : Signalled t.ready t.session.life t.signals) (he : MayEnd step x t) : MayEnd step x t' := by
  refine he.imp_right fun he => he.imp (fun ⟨cause, hknown⟩ => ⟨cause, ?_⟩) fun hrel =>
    ((h.passage hv hs).number.2 hrel).1
  obtain ⟨more, hmore⟩ := h.signals
  rw [hmore]
  exact lookup_append_of_some hknown more

theorem Turn.stays (h : Turn step owner t t') (hv : Valid owner t)
    (hs : Signalled t.ready t.session.life t.signals) (hi : t.session.installed = some x) :
    t'.session.installed = some x ∨ MayEnd step x t' := by
  cases h.passage hv hs with
  | still _ hsame _ => exact Or.inl (hsame.trans hi)
  | use _ _ _ _ _ hsame _ => exact Or.inl (hsame.trans hi)
  | release _ _ _ _ hstirs => exact Or.inr (Or.inr (Or.inr hstirs.released))
  | @turn _ _ cause _ _ hreason _ _ _ _ =>
    cases cause with
    | none =>
      -- A connect ends only a cycle in which nothing was installed.
      rw [show t.session.installed = none from hreason] at hi
      cases hi
    | some cause =>
      obtain ⟨y, hy, hwhy⟩ := hreason
      obtain rfl : y = x := Option.some.inj (hy.symm.trans hi)
      exact Or.inr (h.mayEnd hv hs (hwhy.imp And.left fun hknown => Or.inl ⟨cause, hknown⟩))

/-- **Some turns leave the installed session, unless something ends it.** -/
theorem Turns.stays (h : Turns step owner t t') (hv : Valid owner t)
    (hs : Signalled t.ready t.session.life t.signals) (hi : t.session.installed = some x) :
    t'.session.installed = some x ∨ MayEnd step x t' := by
  induction h with
  | refl => exact Or.inl hi
  | tail hturns hturn ih =>
    have hv' := Turns.valid hturns hv
    have hs' := Turns.signalled hturns hv.accounted hs
    rcases ih with hi | he
    · exact hturn.stays hv' hs' hi
    · exact Or.inr (hturn.mayEnd hv' hs' he)

theorem Turns.released (h : Turns step owner t t') (hv : Valid owner t)
    (hs : Signalled t.ready t.session.life t.signals) (hrel : t.session.released = true) :
    t'.session.released = true := by
  induction h with
  | refl => exact hrel
  | tail hturns hturn ih =>
    have hs' := Turns.signalled hturns hv.accounted hs
    exact ((hturn.passage (Turns.valid hturns hv) hs').number.2 ih).1

end turns

/-! ## Steps -/

section rest

variable {r : Run} {st : Step} {x : Serial}

theorem Run.session_next_disconnect (h : r.session.hasHandle = false) :
    (r.next .disconnect).session = r.session.collect.1 := by
  have hplain : (Step.disconnect.act r.session r.steps.length r.handles).session = r.session := by
    rw [Step.act, byHolder, if_neg (by simp [h])]
    rfl
  show (Step.disconnect.act r.session r.steps.length r.handles).session.collect.1 = _
  rw [hplain]

/-- **A step that ends the installed session is a disconnect, or its signal has ended, or the state
is released.** -/
theorem Run.AtRest.stays_next (hr : r.AtRest) (hi : r.session.installed = some x)
    (hleft : (r.next st).session.installed ≠ some x) :
    st = .disconnect ∧ r.session.hasHandle = true ∨
      (∃ cause, (r.next st).signalOf x = some cause) ∨
      r.session.released = false ∧ (r.next st).session.released = true := by
  rcases (hr.goes st).turns.stays (hr.valid.append [st]) hr.signalled hi with hstay |
    rfl | hsignal | hrel
  · exact absurd hstay hleft
  · refine Or.inl ⟨rfl, ?_⟩
    by_contra hno
    rw [Run.session_next_disconnect (Bool.eq_false_iff.mpr hno)] at hleft
    exact hleft hi
  · exact Or.inr (Or.inl hsignal)
  · exact Or.inr (Or.inr ⟨hr.valid.not_released_of_installed hi, hrel⟩)

theorem Run.AtRest.released_next (hr : r.AtRest) (hrel : r.session.released = true) :
    (r.next st).session.released = true :=
  (hr.goes st).turns.released (hr.valid.append [st]) hr.signalled hrel

theorem mem_pending_of_takeLatest {c : Connector} (h : c.takeLatest.2 = some x) : x ∈ c.pending := by
  unfold Connector.takeLatest at h
  cases hmax : c.pending.max? with
  | none =>
    rw [hmax] at h
    cases h
  | some y =>
    rw [hmax] at h
    rw [← Option.some.inj h]
    exact List.max?_mem hmax

theorem Step.signal_spec {s : Session} {cause : Cause} (h : st.signal s = some (x, cause)) :
    (st = .terminate cause ∨ st = .dropSignal ∧ cause = .signalLost) ∧
      s.connector.takeLatest.2 = some x := by
  cases st with
  | terminate c =>
    obtain ⟨y, hy, heq⟩ := Option.map_eq_some_iff.mp h
    cases heq
    exact ⟨Or.inl rfl, hy⟩
  | dropSignal =>
    obtain ⟨y, hy, heq⟩ := Option.map_eq_some_iff.mp h
    cases heq
    exact ⟨Or.inr ⟨rfl, rfl⟩, hy⟩
  | _ => cases h

end rest

/-! ## Runs -/

/-- What ends the session `x` in the step `st` that follows the steps `before`. -/
inductive Ending (settings : Settings) (players : List Player) (catalog : List Packet.Entry)
    (before : List Step) (st : Step) (x : Serial) : Prop
  /-- A disconnect made by a holder. -/
  | disconnected :
      st = .disconnect → (run settings players catalog before).session.hasHandle = true →
      Ending settings players catalog before st x
  /-- The end of its own signal, now or earlier, while it was installed already. -/
  | signalled {earlier later : List Step} {signal : Step} {cause : Cause} :
      before ++ [st] = earlier ++ signal :: later →
      signal = .terminate cause ∨ signal = .dropSignal ∧ cause = .signalLost →
      (run settings players catalog earlier).session.connector.takeLatest.2 = some x →
      (run settings players catalog earlier).session.installed = some x →
      Ending settings players catalog before st x
  /-- The last holder lets go. -/
  | released :
      (run settings players catalog before).session.released = false →
      (run settings players catalog (before ++ [st])).session.released = true →
      (run settings players catalog (before ++ [st])).session.hasHandle = false →
      Ending settings players catalog before st x

section runs

variable (settings : Settings) (players : List Player) (catalog : List Packet.Entry) {x : Serial}

theorem run_snoc (before : List Step) (st : Step) :
    run settings players catalog (before ++ [st]) = (run settings players catalog before).next st :=
  run_append settings players catalog before [st]

theorem exists_signal_of_mem {steps : List Step} {p : Serial × Cause}
    (h : p ∈ (run settings players catalog steps).signals) :
    ∃ earlier st later, steps = earlier ++ st :: later ∧
      st.signal (run settings players catalog earlier).session = some p := by
  induction steps using List.reverseRecOn with
  | nil => exact absurd h List.not_mem_nil
  | append_singleton steps st ih =>
    rw [run_snoc] at h
    rcases List.mem_append.mp h with h | h
    · obtain ⟨earlier, st', later, rfl, hsignal⟩ := ih h
      exact ⟨earlier, st', later ++ [st], by simp, hsignal⟩
    · exact ⟨steps, st, [], rfl, Option.mem_toList.mp h⟩

/-- A session whose signal has ended was installed when that happened. -/
theorem Ending.of_signal {before : List Step} {st : Step} {cause : Cause}
    (h : (run settings players catalog (before ++ [st])).signalOf x = some cause) :
    Ending settings players catalog before st x := by
  obtain ⟨l₁, l₂, hl, -⟩ := List.lookup_eq_some_iff.mp h
  have hmem : (x, cause) ∈ (run settings players catalog (before ++ [st])).signals := by
    rw [hl]
    exact List.mem_append_right _ (List.mem_cons_self ..)
  obtain ⟨earlier, signal, later, hsteps, hsignal⟩ :=
    exists_signal_of_mem settings players catalog hmem
  obtain ⟨hkind, hlatest⟩ := Step.signal_spec hsignal
  have hr := run_atRest settings players catalog earlier
  exact .signalled hsteps hkind hlatest
    (hr.valid.accounted.pending x (mem_pending_of_takeLatest hlatest))

theorem Ending.of_left {before : List Step} {st : Step}
    (hi : (run settings players catalog before).session.installed = some x)
    (hleft : (run settings players catalog (before ++ [st])).session.installed ≠ some x) :
    Ending settings players catalog before st x := by
  have hr := run_atRest settings players catalog before
  have hleft' := hleft
  rw [run_snoc] at hleft'
  rcases hr.stays_next hi hleft' with ⟨hst, hholder⟩ | ⟨cause, hsignal⟩ | ⟨hheld, hrel⟩
  · exact .disconnected hst hholder
  · rw [← run_snoc] at hsignal
    exact .of_signal settings players catalog hsignal
  · have hgone := (hr.next st).valid.accounted.gone hrel
    rw [← run_snoc] at hrel hgone
    exact .released hheld hrel hgone.2

theorem installed_of_no_ending (before during : List Step)
    (hi : (run settings players catalog before).session.installed = some x)
    (hdisconnect : .disconnect ∉ during)
    (hsignal : (run settings players catalog (before ++ during)).signalOf x = none)
    (hheld : (run settings players catalog (before ++ during)).session.released = false) :
    (run settings players catalog (before ++ during)).session.installed = some x := by
  induction during using List.reverseRecOn with
  | nil => rwa [List.append_nil]
  | append_singleton during st ih =>
    set r := run settings players catalog (before ++ during) with hrdef
    have hr : r.AtRest := run_atRest settings players catalog (before ++ during)
    rw [← List.append_assoc, run_snoc] at hsignal hheld ⊢
    have hsignal' : r.signalOf x = none := by
      cases h : r.signalOf x with
      | none => rfl
      | some cause =>
        have hknown : (r.next st).signalOf x = some cause := lookup_append_of_some h _
        rw [hsignal] at hknown
        cases hknown
    have hheld' : r.session.released = false := by
      refine Bool.eq_false_iff.mpr fun hrel => ?_
      rw [hr.released_next hrel] at hheld
      cases hheld
    have hi' := ih (fun h => hdisconnect (List.mem_append_left _ h)) hsignal' hheld'
    by_contra hleft
    rcases hr.stays_next hi' hleft with ⟨rfl, -⟩ | ⟨cause, hknown⟩ | ⟨-, hrel⟩
    · exact hdisconnect (List.mem_append_right _ (List.mem_singleton_self _))
    · rw [hsignal] at hknown
      cases hknown
    · rw [hrel] at hheld
      cases hheld

/-- **Every end of an installed session is its own.**

A forced end for a session that is not the one installed changes nothing at all. An installed
session therefore ends by a disconnect that found it installed, by its own signal or with the last
holder, and by nothing else: as long as none of these happens it stays, whatever other signals end
or come to their watches late. -/
theorem ends_are_attributed (before : List Step) (x : Serial) :
    let at' := fun steps => run settings players catalog (before ++ steps)
    (∀ (s : Session) (y : Serial) (cause : Cause), s.installed ≠ some y →
        s.endSession y cause = s) ∧
      (∀ st, (at' []).session.installed = some x → (at' [st]).session.installed ≠ some x →
        Ending settings players catalog before st x) ∧
      ∀ during, (at' []).session.installed = some x → .disconnect ∉ during →
        (at' during).signalOf x = none → (at' during).session.released = false →
        (at' during).session.installed = some x := by
  intro at'
  have hbefore : at' [] = run settings players catalog before := by
    show run settings players catalog (before ++ []) = _
    rw [List.append_nil]
  rw [hbefore]
  exact ⟨fun s y cause hne => endSession_of_ne hne cause,
    fun st hi hleft => .of_left settings players catalog hi hleft,
    fun during hi hdisconnect hsignal hheld =>
      installed_of_no_ending settings players catalog before during hi hdisconnect hsignal hheld⟩

/-- The third session loses its signal while its connect is parked, and is disconnected. Its watch
starts when the messages are read, and leaves the fourth session alone. -/
theorem ends_are_attributed_late_watch :
    let steps := [.subscribeMessages 1, .connect (.forServer "s"), .disconnect,
      .connect (.forServer "s"), .disconnect, .connect (.forServer "s"), .dropSignal, .disconnect,
      .connect (.forServer "s")]
    ⟨3, false, some .signalLost⟩ ∈ (run .standard [] [] steps).session.watches ∧
      (run .standard [] [] (steps ++ [.messages 1 .drain])).session.watches = [⟨4, true, none⟩] ∧
      (run .standard [] [] (steps ++ [.messages 1 .drain])).session.installed = some 4 := by
  intro steps
  have h := ends_are_attributed .standard [] [] steps 4
  exact ⟨by decide +kernel, by decide +kernel,
    h.2.2 [.messages 1 .drain] (by decide +kernel) nofun (by decide +kernel) (by decide +kernel)⟩

end runs

end Switchboard.Session
