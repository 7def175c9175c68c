import Switchboard.Proofs.Hub.Results

/-!
# How hubs and subscriptions end

A hub that is given up closes by itself once no publish is under way in it, so that a hub may be
closed without anybody having closed it. A subscription ends with its hub, by a cancel, or when its
holder lets go of the handle.

**Main statements** (`run_closed_iff`, `Run.held_iff`, `Run.registered_iff`). A hub is closed exactly
if its owner closed it, or let go of it and nothing is under way. A handle is held until it is let go
of, which is refused while a receive waits on it. A registered subscription stays so until it is
cancelled, its handle let go, or its hub closed.
-/

namespace Switchboard.Hub

variable {π ρ α : Type}

/-! ## Hubs in the hands of their owner -/

section owned

variable {h : Hub π ρ α} {id : SubscriptionId}

theorem subscribe_owned (ho : h.owned = true) (n : Nat) :
    (h.subscribe n).1.closed = h.closed ∧ (h.subscribe n).1.owned = true := by
  unfold subscribe
  split <;> exact ⟨rfl, ho⟩

theorem tryReceive_owned (ho : h.owned = true) :
    (h.tryReceive id).hub.closed = h.closed ∧ (h.tryReceive id).hub.owned = true := by
  refine ⟨?_, (h.tryReceive_moves id).frame.1.trans ho⟩
  unfold tryReceive
  split
  · rfl
  · rename_i p _
    set reply : Reply π ρ α (Reception α) := resumeAll true p.tryReceive.2.2.toList
      ⟨h.setPipeline id p.tryReceive.1, p.tryReceive.2.1, [], []⟩
    have howned : reply.hub.owned = true := ((resumeAll_moves true _ _).frame.1).trans ho
    show (settle reply).hub.closed = _
    rw [settle_of_anchored (Or.inl howned)]
    exact resumeAll_closed ..

theorem receive_owned (ho : h.owned = true) (caller : ρ) :
    (h.receive id caller).hub.closed = h.closed ∧ (h.receive id caller).hub.owned = true := by
  have hread : (h.tryReceive id).hub.closed = h.closed ∧ _ := tryReceive_owned ho
  unfold receive
  dsimp only
  split <;> exact hread

theorem drainUpTo_owned (fuel : Nat) (acc : List α) {r : Reply π ρ α Unit}
    (ho : r.hub.owned = true) :
    (drainUpTo id fuel acc r).hub.closed = r.hub.closed ∧
      (drainUpTo id fuel acc r).hub.owned = true := by
  induction fuel generalizing acc r with
  | zero => exact ⟨rfl, ho⟩
  | succ fuel ih =>
    obtain ⟨hclosed, howned⟩ : (r.hub.tryReceive id).hub.closed = r.hub.closed ∧ _ :=
      tryReceive_owned ho
    simp only [drainUpTo]
    cases (r.hub.tryReceive id).result with
    | value v => exact (ih (v :: acc) (r := ⟨_, (), _, _⟩) howned).imp_left (·.trans hclosed)
    | empty => exact ⟨hclosed, howned⟩
    | ended => exact ⟨hclosed, howned⟩

theorem cancel_owned (ho : h.owned = true) :
    (h.cancel id).hub.closed = h.closed ∧ (h.cancel id).hub.owned = true := by
  unfold cancel
  split
  · exact ⟨rfl, ho⟩
  · rename_i p _
    split
    · set reply : Reply π ρ α Unit :=
        resumeAll false p.cancel.2.2 ⟨h.setPipeline id p.cancel.1, (), p.cancel.2.1, []⟩
      have howned : reply.hub.owned = true := ((resumeAll_moves false _ _).frame.1).trans ho
      show (settle reply).hub.closed = _ ∧ (settle reply).hub.owned = true
      rw [settle_of_anchored (Or.inl howned)]
      exact ⟨resumeAll_closed .., howned⟩
    · exact ⟨rfl, ho⟩

end owned

section steps

variable {h : Hub Nat Nat α} {call : Nat}

theorem Step.owned_of_ne {s : Step α} (hne : s ≠ .disown) : (s.act h call).hub.owned = h.owned := by
  have hcancel : ∀ id, (h.cancel id).hub.owned = h.owned := by
    intro id
    unfold Hub.cancel
    split
    · rfl
    · split
      · exact (settle_moves _).frame.1.trans (resumeAll_moves false _ _).frame.1
      · rfl
  have hy := s.yields h call
  generalize s.act h call = reply, s.log h call = log at hy ⊢
  cases hy with
  | gone _ | busy _ => rfl
  | subscribe n _ =>
    show (h.subscribe n).1.owned = _
    unfold Hub.subscribe
    split <;> rfl
  | publish order v _ => exact (publishAll_frame h call order [v]).1
  | burst order vs _ => exact (publishAll_frame h call order vs).1
  | receive id _ =>
    show (h.receive id call).hub.owned = _
    unfold Hub.receive
    dsimp only
    split
    all_goals exact (h.tryReceive_moves id).frame.1
  | tryReceive id _ => exact (h.tryReceive_moves id).frame.1
  | drain id _ => exact (h.drain_moves id).frame.1
  | cancel id | abandon id _ => exact hcancel id
  | close _ => exact h.close_moves.frame.1
  | disown _ => exact absurd rfl hne

/-- The owner who does not close the hub finds it as open as before. -/
theorem Step.closed_of_owned {s : Step α} (ho : h.owned = true) (hclose : s ≠ .close)
    (hdisown : s ≠ .disown) : (s.act h call).hub.closed = h.closed := by
  have hy := s.yields h call
  generalize s.act h call = reply, s.log h call = log at hy ⊢
  cases hy with
  | gone _ | busy _ => rfl
  | subscribe n _ =>
    show (h.subscribe n).1.closed = _
    unfold Hub.subscribe
    split <;> rfl
  | publish order v _ => exact publishEach_closed call order [v] _
  | burst order vs _ => exact publishEach_closed call order vs _
  | receive id _ => exact (receive_owned ho call).1
  | tryReceive id _ => exact (tryReceive_owned ho).1
  | drain id _ => exact (drainUpTo_owned _ [] (r := ⟨h, (), [], []⟩) ho).1
  | cancel id | abandon id _ => exact (cancel_owned ho).1
  | close _ => exact absurd rfl hclose
  | disown _ => exact absurd rfl hdisown

theorem Step.owned_disown : ((Step.disown : Step α).act h call).hub.owned = false := by
  simp only [Step.act, byOwner]
  split
  · exact (settle_moves (⟨{ h with owned := false }, (), [], []⟩ : Reply Nat Nat α Unit)).frame.1
  · rename_i ho
    simpa using ho

end steps

/-- **A hub is closed** exactly if its owner closed it, or let go of it and no publish is under
way. -/
theorem run_closed_iff (label : String) (policy : Policy) (steps : List (Step α)) :
    (run label policy steps).hub.closed = true ↔
      (∃ before after, steps = before ++ .close :: after ∧
        (run label policy before).hub.owned = true) ∨
      (run label policy steps).hub.owned = false ∧
        (run label policy steps).hub.parkedPublications = [] := by
  constructor
  · -- What has closed the hub is still there, or the owner is gone.
    intro hc
    have hcause : (∃ before after, steps = before ++ .close :: after ∧
        (run label policy before).hub.owned = true) ∨
          (run label policy steps).hub.owned = false := by
      induction steps using List.reverseRecOn with
      | nil => cases hc
      | append_singleton steps s ih =>
        rw [run_append] at hc ⊢
        simp only [Run.extend_cons, Run.extend_nil, Run.next] at hc ⊢
        by_cases hdisown : s = .disown
        · rw [hdisown]
          exact Or.inr Step.owned_disown
        rw [Step.owned_of_ne hdisown]
        by_cases ho : (run label policy steps).hub.owned = true
        · by_cases hclose : s = .close
          · exact Or.inl ⟨steps, [], by rw [hclose], ho⟩
          · rw [Step.closed_of_owned ho hclose hdisown] at hc
            refine (ih hc).imp_left ?_
            rintro ⟨before, after, hsteps, hown⟩
            exact ⟨before, after ++ [s], by rw [hsteps]; simp, hown⟩
        · exact Or.inr (by simpa using ho)
    exact hcause.imp_right fun ho => ⟨ho, ((run_good label policy steps).sound.idle_of_closed hc).1⟩
  · rintro (⟨before, after, rfl, ho⟩ | ⟨ho, hidle⟩)
    · have hgood : ((run label policy before).next .close).hub.Good :=
        Step.good (run_good label policy before) _
      obtain ⟨-, log, -, hturns, -⟩ :=
        Run.extend_turns (r := (run label policy before).next .close) hgood after
      rw [run_append]
      refine hturns.closed ?_
      show ((Step.close : Step α).act (run label policy before).hub _).hub.closed = true
      simp only [Step.act, byOwner, ho, if_true]
      exact close_closed _
    · rcases (run_good label policy steps).anchored with h | h | h
      · rw [ho] at h
        cases h
      · exact h
      · exact absurd hidle h

/-! ## Handles that are let go -/

section handles

variable {r : Run α} {S : SubscriptionId} {steps : List (Step α)}

/-- In the course of some steps the holder of `S` lets go of the handle. While a receive waits on it
this is refused. -/
def Run.LetsGo (r : Run α) (S : SubscriptionId) (steps : List (Step α)) : Prop :=
  ∃ before after, steps = before ++ .abandon S :: after ∧
    (r.extend before).hub.isWaiting S = false

theorem Run.not_letsGo_nil : ¬ r.LetsGo S [] := by
  rintro ⟨before, after, h, -⟩
  simp at h

theorem Run.letsGo_cons {s : Step α} : r.LetsGo S (s :: steps) ↔
    s = .abandon S ∧ r.hub.isWaiting S = false ∨ (r.next s).LetsGo S steps := by
  constructor
  · rintro ⟨before, after, h, hfree⟩
    cases before with
    | nil =>
      rw [List.nil_append, List.cons.injEq] at h
      exact Or.inl ⟨h.1, hfree⟩
    | cons s' before =>
      rw [List.cons_append, List.cons.injEq] at h
      obtain ⟨rfl, rfl⟩ := h
      exact Or.inr ⟨before, after, rfl, hfree⟩
  · rintro (⟨rfl, hfree⟩ | ⟨before, after, rfl, hfree⟩)
    · exact ⟨[], steps, rfl, hfree⟩
    · exact ⟨s :: before, after, rfl, hfree⟩

theorem Step.abandoned_log {h : Hub Nat Nat α} {call : Nat} {s : Step α}
    (hmem : .abandoned S ∈ s.log h call) : s = .abandon S ∧ h.isWaiting S = false := by
  rcases Step.cutIn_log (Or.inr hmem) with ⟨-, hnone⟩ | rfl
  · exact absurd hmem hnone
  · refine ⟨rfl, ?_⟩
    by_contra hbusy
    simp [Step.log, hbusy] at hmem

theorem Step.pipeline?_abandon {h : Hub Nat Nat α} {call : Nat} (hfree : h.isWaiting S = false) :
    ((Step.abandon S : Step α).act h call).hub.pipeline? S = none := by
  simp only [Step.act, unlessBusy, hfree, Bool.false_eq_true, if_false]
  exact (lookup_forget _ S S).trans (if_pos rfl)

/-- **A handle is held** until it is let go. -/
theorem Run.held_iff (hg : r.hub.Good) (hheld : (r.hub.pipeline? S).isSome = true) :
    ((r.extend steps).hub.pipeline? S).isSome = true ↔ ¬ r.LetsGo S steps := by
  induction steps generalizing r with
  | nil => exact iff_of_true hheld not_letsGo_nil
  | cons s rest ih =>
    have hg' : (r.next s).hub.Good := s.good hg
    have hturns : Turns ⟨r.hub, []⟩ _ ⟨(r.next s).hub, []⟩ := s.turns hg
    obtain ⟨p, hp⟩ := Option.isSome_iff_exists.mp hheld
    rw [letsGo_cons, Run.extend_cons]
    by_cases hgo : s = .abandon S ∧ r.hub.isWaiting S = false
    · refine iff_of_false ?_ (not_not.mpr (Or.inl hgo))
      have hnone : (r.next s).hub.pipeline? S = none := hgo.1 ▸ Step.pipeline?_abandon hgo.2
      have hknown : S ≤ (r.next s).hub.lastId :=
        Nat.le_trans (hg.sound.named _ (mem_of_pipeline? hp)).2 hturns.lastId_le
      obtain ⟨-, log, -, hlater, -⟩ := Run.extend_turns hg' rest
      rw [(hlater.absent hg'.sound hnone hknown).2.2]
      exact Bool.false_ne_true
    · have hkept : ((r.next s).hub.pipeline? S).isSome = true :=
        (hturns.account hg.sound hp).held fun hmem => hgo (Step.abandoned_log hmem)
      exact (ih hg' hkept).trans (not_congr ⟨Or.inr, fun h => h.resolve_left hgo⟩)

/-- **A registered subscription stays so** until it is cancelled, its handle let go, or its hub
closed. -/
theorem Run.registered_iff (hg : r.hub.Good) (hreg : S ∈ r.hub.registered) (steps : List (Step α)) :
    S ∈ (r.extend steps).hub.registered ↔
      .cancel S ∉ steps ∧ ¬ r.LetsGo S steps ∧ (r.extend steps).hub.closed = false := by
  induction steps generalizing r with
  | nil =>
    obtain ⟨p, hp, hopen⟩ := hg.sound.mem_registered.mp hreg
    have hopenhub : r.hub.closed = false := by
      by_contra hc
      rw [Pipeline.isOpen, (hg.sound.fits_of hp).shut (by simpa using hc)] at hopen
      cases hopen
    exact iff_of_true hreg ⟨List.not_mem_nil, not_letsGo_nil, hopenhub⟩
  | cons s rest ih =>
    have hg' : (r.next s).hub.Good := s.good hg
    have hturns : Turns ⟨r.hub, []⟩ _ ⟨(r.next s).hub, []⟩ := s.turns hg
    obtain ⟨-, log, -, hlater, -⟩ := Run.extend_turns hg' rest
    obtain ⟨p, hp, -⟩ := hg.sound.mem_registered.mp hreg
    have hknown : S ≤ (r.next s).hub.lastId :=
      Nat.le_trans (hg.sound.named _ (mem_of_pipeline? hp)).2 hturns.lastId_le
    -- Whoever is not registered any more never is again.
    have hstays : ¬ (r.next s).hub.Registered S → S ∉ (r.extend (s :: rest)).hub.registered := by
      intro hnone hmem
      refine hlater.not_registered hg'.sound hknown hnone ?_
      exact (Run.extend_turns hg' rest).1.sound.mem_registered.mp hmem
    rw [letsGo_cons, List.mem_cons, not_or]
    by_cases hcancel : s = .cancel S
    · refine iff_of_false (hstays ?_) fun h => h.1.1 hcancel.symm
      rw [hcancel]
      exact cancel_not_registered hg.sound
    by_cases hgo : s = .abandon S ∧ r.hub.isWaiting S = false
    · refine iff_of_false (hstays ?_) fun h => h.2.1 (Or.inl hgo)
      exact not_registered_of_none (hgo.1 ▸ Step.pipeline?_abandon hgo.2)
    by_cases hc : (r.next s).hub.closed = true
    · refine iff_of_false (hstays ?_) fun h => ?_
      · rintro ⟨p', hp', hopen⟩
        rw [Pipeline.isOpen, (hg'.sound.fits_of hp').shut hc] at hopen
        cases hopen
      · have hclosed := hlater.closed hc
        exact absurd (hclosed.symm.trans h.2.2) Bool.noConfusion
    · have hcut : ¬ CutIn S (s.log r.hub r.calls) := by
        rintro (hmem | hmem)
        · rcases Step.cutIn_log (Or.inl hmem) with ⟨h, -⟩ | rfl
          · exact hcancel h
          · have hbusy : r.hub.isWaiting S = true := by
              by_contra hfree
              exact hgo ⟨rfl, by simpa using hfree⟩
            simp [Step.log, hbusy] at hmem
        · exact hgo (Step.abandoned_log hmem)
      have hreg' := hturns.registered hg.sound hcut (by simpa using hc) hreg
      refine (ih hg' hreg').trans (and_congr ⟨fun h => ⟨Ne.symm hcancel, h⟩, And.right⟩ ?_)
      exact and_congr_left' (not_congr ⟨Or.inr, fun h => h.resolve_left hgo⟩)

end handles

end Switchboard.Hub
