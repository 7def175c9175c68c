import Switchboard.Proofs.Hub.Shifts
import Switchboard.Proofs.Hub.Waiting

/-!
# Values published

A call may bring several values, which are published one after another. While one of them is parked,
the others are left for later. What has been published and what is left are together the same before
and after every operation but a call (`tryReceive_sent` and so on): a hub settles only when nothing
is left, so only an owner who closes the hub takes something away (`close_sent`).
-/

namespace Switchboard.Hub

variable {π ρ α β : Type} {h h' : Hub π ρ α} {id : SubscriptionId} {log : List (Event π ρ α)}

/-- The number of values left in the calls whose publishes are parked. -/
def left (h : Hub π ρ α) : Nat := (h.parkedPublications.map (·.later.length)).sum

/-- The number of values published so far and of those left. -/
def sent (h : Hub π ρ α) : Nat := h.published + h.left

theorem offer_closed (h : Hub π ρ α) (id : SubscriptionId) (q : Publication π α) :
    (h.offer id q).1.closed = h.closed := by
  unfold offer
  cases h.pipeline? id with
  | none => rfl
  | some p =>
    simp only
    split
    · split
      · rfl
      · cases h.policy <;> rfl
    · rfl

theorem visit_closed (q : Publication π α) (ids : List SubscriptionId) (r : Progress π ρ α) :
    (visit q ids r).hub.closed = r.hub.closed := by
  induction ids generalizing r with
  | nil => rfl
  | cons id ahead ih =>
    have hoffer := r.hub.offer_closed id { q with ahead, accepted := r.accepted }
    simp only [visit]
    rcases hres : r.hub.offer id { q with ahead, accepted := r.accepted } with
      ⟨hub, _ | _ | _, received⟩
    all_goals rw [hres] at hoffer
    · exact (ih _).trans hoffer
    · exact (ih _).trans hoffer
    · exact hoffer

theorem publishEach_closed (caller : π) (order : List SubscriptionId) (values : List α)
    (r : Progress π ρ α) : (publishEach caller order values r).hub.closed = r.hub.closed := by
  induction values generalizing r with
  | nil => rfl
  | cons v later ih =>
    rw [publishEach]
    split
    · exact ih r
    · have hvisit := visit_closed ⟨caller, order, v, [], 0, later⟩
        (targets { r.hub with published := r.hub.published + 1 } order)
        { r with hub := { r.hub with published := r.hub.published + 1 } }
      simp only
      split
      · exact hvisit
      · exact (ih _).trans hvisit

theorem resumeAll_closed (stored : Bool) (qs : List (Publication π α)) (reply : Reply π ρ α β) :
    (resumeAll stored qs reply).hub.closed = reply.hub.closed := by
  induction qs generalizing reply with
  | nil => rfl
  | cons q rest ih =>
    refine (ih _).trans ?_
    have hvisit := visit_closed q q.ahead
      ⟨reply.hub, q.accepted + (if stored then 1 else 0), false, []⟩
    unfold resume
    by_cases hpark : (visit q q.ahead
        ⟨reply.hub, q.accepted + (if stored then 1 else 0), false, []⟩).parked = true
    · simp only [if_pos hpark]
      exact hvisit
    · simp only [if_neg hpark]
      exact (publishEach_closed ..).trans hvisit

/-- Between two steps only the calls of parked publishes have values left. -/
theorem unsent_eq (h : Hub π ρ α) : unsent ⟨h, []⟩ = h.left := by
  rw [unsent, standings, flight, List.nil_append, List.map_map]
  rfl

theorem sent_of_parked (hpub : h'.published = h.published)
    (hparked : h'.parkedPublications = h.parkedPublications) : h'.sent = h.sent := by
  rw [sent, sent, left, left, hpub, hparked]

theorem left_of_closed (hs : h.Sound) (hc : h.closed = true) : h.left = 0 := by
  rw [left, (hs.idle_of_closed hc).1]
  rfl

/-- Closing a hub in which nothing is parked. -/
theorem close_of_idle (hs : h.Sound) (hc : ¬ h.closed = true) (hidle : h.parkedPublications = []) :
    h.close.hub =
      { h with pipelines := h.pipelines.map fun e => (e.1, e.2.retired), closed := true } := by
  rw [close, if_neg hc, hs.retireAll_eq, hidle]
  rfl

/-- Turns that leave a hub open or closed lose no value. -/
theorem Turns.sent (ht : Turns ⟨h, []⟩ log ⟨h', []⟩) (hs : h.Sound) (hcalls : callsIn log = [])
    (hsame : h'.closed = h.closed) : h'.sent = h.sent := by
  obtain ⟨hopen, hclosed⟩ := ht.published hs hcalls
  rw [unsent_eq, unsent_eq] at hopen
  cases hc : h.closed with
  | false => exact hopen (hsame.trans hc)
  | true =>
    rw [Hub.sent, Hub.sent, left_of_closed hs hc, left_of_closed (ht.sound hs) (hsame.trans hc)]
    exact hclosed hc

/-- A hub settles only when no value is left. -/
theorem settle_sent (reply : Reply π ρ α β) (hs : reply.hub.Sound) :
    (settle reply).hub.sent = reply.hub.sent := by
  unfold settle
  split
  · rfl
  · rename_i hsettle
    rw [Bool.or_eq_true, Bool.not_eq_true', List.isEmpty_eq_false_iff, not_or, not_not] at hsettle
    by_cases hc : reply.hub.closed = true
    · rw [close_of_closed hc]
    · refine sent_of_parked ?_ ?_
      · show reply.hub.close.hub.published = _
        rw [close_of_idle hs hc hsettle.2]
      · show reply.hub.close.hub.parkedPublications = _
        rw [close_of_idle hs hc hsettle.2, parkedPublications_retired, hsettle.2]

theorem tryReceive_sent (hs : h.Sound) (id : SubscriptionId) :
    (h.tryReceive id).hub.sent = h.sent := by
  cases hp : h.pipeline? id with
  | none => simp only [tryReceive, hp]
  | some p =>
    simp only [tryReceive, hp]
    rcases hread : p.tryReceive with ⟨p', reception, publication⟩
    have hmoves : Moves _ _ _ := Chain.head (.read hp hread) (resumeAll_moves true publication.toList
      (⟨h.setPipeline id p', reception, [], []⟩ : Reply π ρ α (Reception α)))
    refine (settle_sent _ (hmoves.turns.sound hs)).trans ?_
    exact hmoves.turns.sent hs hmoves.callsIn (resumeAll_closed ..)

theorem sent_setPipeline (hs : h.Sound) {p q : Pipeline (Publication π α) ρ α}
    (hp : h.pipeline? id = some p) (hw : q.waiting = p.waiting) :
    (h.setPipeline id q).sent = h.sent :=
  sent_of_parked rfl (parkedPublications_setPipeline hs hp hw)

theorem receive_sent (hs : h.Sound) (id : SubscriptionId) (caller : ρ) :
    (h.receive id caller).hub.sent = h.sent := by
  have hread := tryReceive_sent hs id
  have hs' := (h.tryReceive_moves id).turns.sound hs
  simp only [receive]
  split
  · exact hread
  · rename_i p _ hp
    exact (sent_setPipeline hs' hp (q := { p with receiver := some caller }) rfl).trans hread
  · exact hread

theorem drainUpTo_sent (id : SubscriptionId) (fuel : Nat) (acc : List α)
    (reply : Reply π ρ α Unit) (hs : reply.hub.Sound) :
    (drainUpTo id fuel acc reply).hub.sent = reply.hub.sent := by
  induction fuel generalizing acc reply with
  | zero => rfl
  | succ fuel ih =>
    have hread := tryReceive_sent hs id
    have hs' := (reply.hub.tryReceive_moves id).turns.sound hs
    simp only [drainUpTo]
    cases (reply.hub.tryReceive id).result with
    | value v => exact (ih (v :: acc) ⟨_, (), _, _⟩ hs').trans hread
    | empty => exact hread
    | ended => exact hread

theorem cancel_sent (hs : h.Sound) (id : SubscriptionId) : (h.cancel id).hub.sent = h.sent := by
  cases hp : h.pipeline? id with
  | none => simp only [cancel, hp]
  | some p =>
    simp only [cancel, hp]
    split
    · rename_i hopen
      rcases hcancel : p.cancel with ⟨p', received, publications⟩
      have hmoves := resumeAll_moves false publications
        (⟨h.setPipeline id p', (), received, []⟩ : Reply π ρ α Unit)
      have hturns := Chain.head (.cancel hp hopen hcancel) hmoves.turns
      have hcalls : callsIn (.cancelled id :: answers id received : List (Event π ρ α)) = [] :=
        callsIn_answers id received
      refine (settle_sent _ (Turns.sound hturns hs)).trans ?_
      refine Turns.sent hturns hs ?_ (resumeAll_closed ..)
      rw [callsIn_append, hcalls, hmoves.callsIn]
      rfl
    · rfl

theorem abandon_sent (hs : h.Sound) (id : SubscriptionId) : (h.abandon id).hub.sent = h.sent := by
  have hs' := (h.cancel_turns id).sound hs
  have hcancelled : ¬ (h.cancel id).hub.Registered id := cancel_not_registered hs
  have hgone := not_registered_iff.mp hcancelled
  have hforget : (h.abandon id).hub.sent = (h.cancel id).hub.sent :=
    sent_of_parked rfl (parkedPublications_forget hs' hgone)
  exact hforget.trans (cancel_sent hs id)

theorem disown_sent (hs : h.Sound) : h.disown.hub.sent = h.sent :=
  settle_sent ⟨{ h with owned := false }, (), [], []⟩ ⟨hs.nodup, hs.named, hs.fits⟩

/-- What is left when the owner closes the hub is given up. -/
theorem close_sent (hs : h.Sound) : h.close.hub.sent + h.left = h.sent := by
  by_cases hc : h.closed = true
  · rw [close_of_closed hc, left_of_closed hs hc]
    rfl
  · have hend := h.close_moves.turns.sound hs
    rw [Hub.sent, left_of_closed hend (close_closed h), Hub.sent, Nat.add_zero]
    rw [close, if_neg hc]
    rcases hret : retireAll h.pipelines with ⟨pipelines, received, publications⟩
    have hshut : Move ⟨h, []⟩ _ _ := .shut (by simpa using hc) hret
    have hmoves := resumeAll_moves false publications
      (⟨{ h with pipelines, closed := true }, (), received, []⟩ : Reply π ρ α Unit)
    have hpub := (hmoves.turns.published (hshut.sound hs) hmoves.callsIn).2 rfl
    exact congrArg (· + _) hpub

end Switchboard.Hub
