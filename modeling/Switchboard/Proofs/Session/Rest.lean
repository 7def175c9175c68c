import Switchboard.Proofs.Session.Operations
import Switchboard.Proofs.Session.Signals

/-!
# Runs at rest

Between two steps of a run the state is at rest: every connection is accounted for, the cycles are
in order, the watches know what became of their signals, no watch can go on, the state is released
unless somebody holds it, and every call that returned has been collected.

**Main statements** (`Run.AtRest.next`, `run_atRest`). A step leads from rest to rest, and so every
run does.
-/

namespace Switchboard.Session

open Hub (Use)

/-- The scene that a run has come to. -/
def Run.scene (r : Run) : Scene := ⟨r.session, [], r.handles, r.signals, r.received⟩

/-- What holds between two steps. -/
structure Run.AtRest (r : Run) : Prop where
  valid : Valid (handleOf r.steps) r.scene
  signalled : Signalled [] r.session.life r.signals
  quiet : Quiet r.session
  kept : Kept r.session
  collected : r.session.completions = []

/-! ## Calls -/

theorem handleOf_append {steps : List Step} {call : Nat} {handle : CauseHandle}
    (h : handleOf steps call = some handle) (more : List Step) :
    handleOf (steps ++ more) call = some handle := by
  unfold handleOf at h ⊢
  cases hs : steps[call]? with
  | none => simp [hs] at h
  | some st =>
    rw [hs] at h
    rw [List.getElem?_append_left (List.getElem?_eq_some_iff.mp hs).1, hs]
    exact h

theorem handleOf_length (steps : List Step) (handle : CauseHandle) (use : Use) :
    handleOf (steps ++ [.causes handle use]) steps.length = some handle := by
  simp [handleOf]

/-- Whoever made a call makes it still after more steps. -/
theorem Valid.append {steps : List Step} {t : Scene} (hv : Valid (handleOf steps) t)
    (more : List Step) : Valid (handleOf (steps ++ more)) t :=
  ⟨hv.accounted, hv.orderly.mono fun _ _ h => handleOf_append h more⟩

/-! ## A new session -/

theorem accounted_new (settings : Settings) (players : List Player) (catalog : List Packet.Entry) :
    Accounted [] (new settings (.new players catalog)).life where
  torn x := by
    rw [if_neg fun h => absurd (h.1.trans h.2.1) (Nat.not_succ_le_zero 0)]
    rfl
  serial _ h := nomatch h
  pending _ h := nomatch h
  once := List.nodup_nil
  going _ h := nomatch h
  bounded _ h := nomatch h
  distinct := List.nodup_nil
  watched _ h := nomatch h
  good := Hub.good_new _ _
  gone h := nomatch h

theorem orderly_new (settings : Settings) (connector : Connector)
    (owner : Nat → Option CauseHandle) : Orderly owner [] (new settings connector).trail := by
  have hhub : ∀ k h, (new settings connector).trail.hub? k = some h →
      k = 0 ∧ h = .new (settings.hubLabel "disc") .reliable := by
    intro k h hk
    obtain ⟨c, hc, rfl⟩ := Option.map_eq_some_iff.mp hk
    have hc' : (if 0 = k then some (freshCycle settings 0) else none) = some c := hc
    split at hc'
    · rename_i h0
      rw [← Option.some.inj hc']
      exact ⟨h0.symm, rfl⟩
    · cases hc'
  have hslot : ∀ k id p, (new settings connector).trail.slot k id ≠ some p := by
    intro k id p hp
    obtain ⟨h, hk, hp⟩ := Option.bind_eq_some_iff.mp hp
    rw [(hhub k h hk).2] at hp
    cases hp
  refine ⟨fun k h hk => Nat.le_of_eq (hhub k h hk).1, ⟨_, rfl⟩, fun k h hk => ?_, fun k h hk => ?_,
    fun id p hp => absurd hp (hslot _ id p), List.nodup_nil,
    fun k id p _ hp => absurd hp (hslot k id p), fun _ h => (nomatch h), fun _ h => (nomatch h),
    fun _ h => (nomatch h), fun h => (nomatch h)⟩
  · rw [(hhub k h hk).2]
    exact ⟨Hub.good_new _ _, rfl⟩
  · rw [(hhub k h hk).1, (hhub k h hk).2]
    exact ⟨fun _ => ⟨rfl, rfl⟩, fun _ => rfl⟩

/-! ## Steps -/

section steps

variable {r : Run}

/-- The scene after a step, before the calls that returned are collected. -/
def Run.played (r : Run) (st : Step) : Scene :=
  r.scene.after (st.act r.session r.steps.length r.handles) (st.signal r.session)

theorem Run.AtRest.goes (hr : r.AtRest) (st : Step) :
    Goes st (handleOf (r.steps ++ [st])) r.scene (r.played st) :=
  Step.goes (hr.valid.append [st]) rfl fun handle use hst => by
    rw [hst]
    exact handleOf_length r.steps handle use

theorem Run.AtRest.next (hr : r.AtRest) (st : Step) : (r.next st).AtRest := by
  have hgoes := hr.goes st
  have hv := hgoes.turns.valid (hr.valid.append [st])
  have hs := hgoes.turns.signalled hr.valid.accounted hr.signalled
  rw [hgoes.ready] at hs
  exact ⟨⟨hv.accounted, hv.orderly.answered []⟩, hs, hgoes.quiet hr.quiet, hgoes.kept hr.kept, rfl⟩

theorem Run.AtRest.extend (hr : r.AtRest) (steps : List Step) : (r.extend steps).AtRest := by
  induction steps generalizing r with
  | nil => exact hr
  | cons st steps ih => exact ih (hr.next st)

/-- **Every run leads to rest.** -/
theorem run_atRest (settings : Settings) (players : List Player) (catalog : List Packet.Entry)
    (steps : List Step) : (run settings players catalog steps).AtRest := by
  have hnew : Run.AtRest ⟨.new settings (.new players catalog), [], [], [], []⟩ := by
    exact ⟨⟨accounted_new settings players catalog, orderly_new settings _ _⟩,
      ⟨fun _ h => (nomatch h), fun _ h => (nomatch h), fun _ h => (nomatch h)⟩,
      fun _ h => (nomatch h), Or.inr rfl, rfl⟩
  exact hnew.extend steps

end steps

end Switchboard.Session
