import Switchboard.Proofs.Session.Faces

/-!
# Lifecycle messages on their way

A lifecycle call returns when the publish of its message does. The message hub keeps account of the
calls whose publish is parked (`parkedCalls`): none is lost and none appears on its own (`Passed`).
-/

namespace Switchboard.Session

open Hub

/-- The calls whose lifecycle message is parked. -/
def parkedCalls (h : Hub LifecycleCall Nat Message) : List LifecycleCall :=
  h.parkedPublications.map (·.caller)

/-- An operation on the message hub that starts some publishes and lets some return. -/
structure Passed (h h' : Hub LifecycleCall Nat Message) (called returned : List LifecycleCall) :
    Prop where
  good : h'.Good
  calls : (parkedCalls h ++ called).Perm (parkedCalls h' ++ returned)

section passed

variable {h h' : Hub LifecycleCall Nat Message} {id : SubscriptionId}

theorem Passed.of_turns {log : List (Event LifecycleCall Nat Message)} (hg : h.Good)
    (ht : Turns ⟨h, []⟩ log ⟨h', []⟩) (ha : h'.Anchored) :
    Passed h h' (callsIn log) ((returnsIn log).map (·.1)) :=
  ⟨⟨ht.sound hg.sound, ha⟩, ht.callers_perm hg.sound⟩

/-- A call that was parked returned or is parked still. -/
theorem Passed.mem {called returned : List LifecycleCall} (hp : Passed h h' called returned)
    {who : LifecycleCall} (hw : who ∈ parkedCalls h) : who ∈ returned ∨ who ∈ parkedCalls h' := by
  have hmem := hp.calls.mem_iff.mp (List.mem_append_left called hw)
  exact (List.mem_append.mp hmem).symm

theorem passed_subscribe (hg : h.Good) (n : Nat) : Passed h (h.subscribe n).1 [] [] := by
  refine Passed.of_turns hg (h.subscribe_turns n) ?_
  unfold Hub.subscribe
  split
  · exact hg.anchored
  · rcases hg.anchored with ha | ha | ha
    · exact Or.inl ha
    · exact Or.inr (Or.inl ha)
    · refine Or.inr (Or.inr fun hnone => ha ?_)
      exact (List.append_eq_nil_iff.mp ((List.flatMap_append ..).symm.trans hnone)).1

theorem passed_tryReceive (hg : h.Good) :
    Passed h (h.tryReceive id).hub [] ((h.tryReceive id).returned.map (·.1)) := by
  have hpassed := Passed.of_turns hg (h.tryReceive_moves id).turns (tryReceive_anchored hg.anchored)
  rwa [(h.tryReceive_moves id).callsIn, ← (h.tryReceive_reply id).2] at hpassed

theorem passed_receive (hg : h.Good) (call : Nat) :
    Passed h (h.receive id call).hub [] ((h.receive id call).returned.map (·.1)) := by
  have hanchored : (h.receive id call).hub.Anchored := receive_anchored hg.sound hg.anchored call
  have hpassed := Passed.of_turns hg (receive_turns hg.sound hg.anchored call) hanchored
  rwa [(h.tryReceive_moves id).callsIn, ← (h.tryReceive_reply id).2,
    ← (h.receive_reply id call).2.2] at hpassed

theorem passed_cancel (hg : h.Good) :
    Passed h (h.cancel id).hub [] ((h.cancel id).returned.map (·.1)) := by
  have hpassed := Passed.of_turns hg (h.cancel_turns id) (cancel_anchored hg.anchored)
  rwa [(cancelLog_spec h id).1, ← (h.cancel_reply id).2] at hpassed

theorem passed_abandon (hg : h.Good) :
    Passed h (h.abandon id).hub [] ((h.abandon id).returned.map (·.1)) := by
  have hanchored : (h.abandon id).hub.Anchored := abandon_anchored hg.sound hg.anchored
  have hpassed := Passed.of_turns hg (abandon_turns hg.sound) hanchored
  rwa [abandonLog, callsIn_append, (cancelLog_spec h id).1, ← abandonLog,
    ← (h.abandon_reply id).2] at hpassed

/-- A publish that does not return is parked. -/
theorem passed_publish (hg : h.Good) (who : LifecycleCall) (m : Message) :
    Passed h (h.publish who m).hub [who]
      (match (h.publish who m).result with
        | .returned _ => [who]
        | .parked => []) := by
  have hturns := h.publishAll_turns who [] [m]
  have hsound := hturns.sound hg.sound
  have hcalls := hturns.callers_perm hg.sound
  rw [callsIn_publishAllLog, returnsIn_publishAllLog] at hcalls
  unfold Hub.publish
  cases hresult : (h.publishAll who [] [m]).result with
  | returned n =>
    rw [hresult] at hcalls
    have hsame : (parkedCalls h).Perm (parkedCalls (h.publishAll who [] [m]).hub) :=
      (List.perm_append_right_iff [who]).mp hcalls
    refine ⟨⟨hsound, ?_⟩, hcalls⟩
    rcases hg.anchored with ha | ha | ha
    · exact Or.inl ((publishAll_frame h who [] [m]).1.trans ha)
    · exact Or.inr (Or.inl (hturns.closed ha))
    · refine Or.inr (Or.inr fun hnone => ha ?_)
      rw [parkedCalls, parkedCalls, hnone] at hsame
      exact List.map_eq_nil_iff.mp hsame.eq_nil
  | parked =>
    rw [hresult] at hcalls
    refine ⟨⟨hsound, Or.inr (Or.inr fun hnone => ?_)⟩, hcalls⟩
    have hmem := hcalls.mem_iff.mp (List.mem_append_right _ (List.mem_singleton_self who))
    rw [callers, flight, hnone] at hmem
    cases hmem

end passed

/-! ## What a session makes of it -/

section announce

variable {s : Session}

/-- A lifecycle call returns, or it is parked. -/
theorem life_announce (hg : s.messages.Good) (who : LifecycleCall) (m : Message) :
    ∃ hub,
      Passed s.messages hub [who] [who] ∧
          (s.announce who m).1.life = ({ s.life with messages := hub }).start who ∨
        Passed s.messages hub [who] [] ∧
          (s.announce who m).1.life = { s.life with messages := hub } := by
  refine ⟨(s.messages.publish who m).hub, ?_⟩
  have hpassed := passed_publish hg who m
  have hread := life_readMessages { s with messages := (s.messages.publish who m).hub }
    (s.messages.publish who m).received
  simp only [announce]
  cases hresult : (s.messages.publish who m).result with
  | returned n =>
    rw [hresult] at hpassed
    refine Or.inl ⟨hpassed, ?_⟩
    rw [life_published, hread]
    rfl
  | parked =>
    rw [hresult] at hpassed
    exact Or.inr ⟨hpassed, hread⟩

theorem life_resumeCalls (returned : List (LifecycleCall × Nat)) (s : Session) :
    (returned.foldl (fun s r => s.resumeCall r.1) s).life =
      (returned.map (·.1)).foldl Life.start s.life := by
  induction returned generalizing s with
  | nil => rfl
  | cons r rest ih =>
    rw [List.foldl_cons, ih, life_resumeCall]
    rfl

theorem trail_resumeCalls (returned : List (LifecycleCall × Nat)) (s : Session) :
    (returned.foldl (fun s r => s.resumeCall r.1) s).trail = s.trail := by
  induction returned generalizing s with
  | nil => rfl
  | cons r rest ih => exact (ih _).trans (trail_resumeCall s r.1)

end announce

end Switchboard.Session
