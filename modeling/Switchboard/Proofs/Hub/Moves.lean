import Mathlib.Data.List.Basic
import Switchboard.Proofs.Hub.Log

/-!
# Hub operations as sequences of moves

A hub operation is a sequence of small steps. A *move* is one that the hub makes by itself: a
publish comes to its next target, a publish ends, a value leaves a channel, the hub shuts. A *turn*
is a move or what a user contributes: a publish is called, a subscription comes or goes, a holder
begins to wait, the owner lets go. Whatever every turn keeps, every operation keeps.

**Scenes.** Between two moves some publishes may be under way and parked nowhere; a `Scene` is a hub
with those publishes, in the order in which they go on.

**Main statements** (`…_moves`, `…_turns`). Each operation is a sequence of turns from its start to
its end, whose events are its log.
-/

namespace Switchboard

/-- A publish that goes on after its target stored or refused the value. -/
def Publication.arrived {π α : Type} (q : Publication π α) (stored : Bool) : Publication π α :=
  { q with accepted := q.accepted + if stored then 1 else 0 }

namespace Hub

variable {π ρ α β : Type}

/-- A hub in the middle of an operation: the publishes that are under way and parked nowhere, in
the order in which they go on. -/
structure Scene (π ρ α : Type) where
  hub : Hub π ρ α
  moving : List (Publication π α)

/-- One move, and what a bystander notes of it. -/
inductive Move : Scene π ρ α → List (Event π ρ α) → Scene π ρ α → Prop
  /-- A target with room takes the value. -/
  | store {h : Hub π ρ α} {q : Publication π α} {moving : List (Publication π α)}
      {id : SubscriptionId} {ahead : List SubscriptionId}
      {p p' : Pipeline (Publication π α) ρ α} {received : List (ρ × Option α)} :
      q.ahead = id :: ahead → h.pipeline? id = some p → p.isOpen = true →
      p.buffer.hasRoom = true → p.store q.value = (p', received) →
      Move ⟨h, q :: moving⟩ (.stored id q.caller q.value :: answers id received)
        ⟨h.setPipeline id p', { q with ahead, accepted := q.accepted + 1 } :: moving⟩
  /-- A target that is gone or shut is passed over. -/
  | pass {h : Hub π ρ α} {q : Publication π α} {moving : List (Publication π α)}
      {id : SubscriptionId} {ahead : List SubscriptionId} :
      q.ahead = id :: ahead → (∀ p, h.pipeline? id = some p → p.isOpen = false) →
      Move ⟨h, q :: moving⟩ [] ⟨h, { q with ahead } :: moving⟩
  /-- A full target of a lossy hub misses the value. -/
  | miss {h : Hub π ρ α} {q : Publication π α} {moving : List (Publication π α)}
      {id : SubscriptionId} {ahead : List SubscriptionId}
      {p : Pipeline (Publication π α) ρ α} :
      q.ahead = id :: ahead → h.pipeline? id = some p → p.isOpen = true →
      p.buffer.hasRoom = false → h.policy = .lossy →
      Move ⟨h, q :: moving⟩ [] ⟨{ h with dropped := h.dropped + 1 }, { q with ahead } :: moving⟩
  /-- A full target of a reliable hub parks the publish. -/
  | park {h : Hub π ρ α} {q : Publication π α} {moving : List (Publication π α)}
      {id : SubscriptionId} {ahead : List SubscriptionId}
      {p : Pipeline (Publication π α) ρ α} :
      q.ahead = id :: ahead → h.pipeline? id = some p → p.isOpen = true →
      p.buffer.hasRoom = false → h.policy = .reliable →
      Move ⟨h, q :: moving⟩ [] ⟨h.setPipeline id (p.park { q with ahead } q.value), moving⟩
  /-- A publish that has visited all its targets returns. -/
  | finish {h : Hub π ρ α} {q : Publication π α} {moving : List (Publication π α)} :
      q.ahead = [] → q.later = [] →
      Move ⟨h, q :: moving⟩ [.returned q.caller q.accepted] ⟨h, moving⟩
  /-- On a closed hub the next value of the call goes nowhere. -/
  | skip {h : Hub π ρ α} {q : Publication π α} {moving : List (Publication π α)} {v : α}
      {later : List α} :
      q.ahead = [] → q.later = v :: later → h.closed = true →
      Move ⟨h, q :: moving⟩ [] ⟨h, { q with later } :: moving⟩
  /-- The call goes on to its next value. -/
  | next {h : Hub π ρ α} {q : Publication π α} {moving : List (Publication π α)} {v : α}
      {later : List α} :
      q.ahead = [] → q.later = v :: later → h.closed = false →
      Move ⟨h, q :: moving⟩ []
        ⟨{ h with published := h.published + 1 },
          { q with value := v, ahead := h.targets q.order, later } :: moving⟩
  /-- A holder receives without waiting, and the longest parked publish is let in. -/
  | read {h : Hub π ρ α} {id : SubscriptionId} {p p' : Pipeline (Publication π α) ρ α}
      {reception : Reception α} {publication : Option (Publication π α)} :
      h.pipeline? id = some p → p.tryReceive = (p', reception, publication) →
      Move ⟨h, []⟩ (readLog id reception publication)
        ⟨h.setPipeline id p', publication.toList.map (·.arrived true)⟩
  /-- The hub shuts, and the parked publishes go on. -/
  | shut {h : Hub π ρ α} {pipelines : List (SubscriptionId × Pipeline (Publication π α) ρ α)}
      {received : List (ρ × Option α)} {publications : List (Publication π α)} :
      h.closed = false → retireAll h.pipelines = (pipelines, received, publications) →
      Move ⟨h, []⟩ (retireAllLog h.pipelines)
        ⟨{ h with pipelines, closed := true }, publications.map (·.arrived false)⟩

/-- A move, or what a user of the hub contributes. -/
inductive Turn : Scene π ρ α → List (Event π ρ α) → Scene π ρ α → Prop
  | move {s t : Scene π ρ α} {log : List (Event π ρ α)} : Move s log t → Turn s log t
  /-- A subscriber comes. -/
  | subscribe (h : Hub π ρ α) (n : Nat) :
      h.closed = false → Turn ⟨h, []⟩ [] ⟨(h.register (.new n)).1, []⟩
  /-- A publish is called while the hub is open. -/
  | call (h : Hub π ρ α) (caller : π) (order : List SubscriptionId) (v : α) (later : List α) :
      h.closed = false →
      Turn ⟨h, []⟩ [.called caller]
        ⟨{ h with published := h.published + 1 },
          [⟨caller, order, v, h.targets order, 0, later⟩]⟩
  /-- A call that has nothing to publish, or finds the hub closed. -/
  | decline (h : Hub π ρ α) (caller : π) :
      Turn ⟨h, []⟩ [.called caller, .returned caller 0] ⟨h, []⟩
  /-- A registered subscription is cancelled, and the publishes parked on it go on. -/
  | cancel {h : Hub π ρ α} {id : SubscriptionId} {p p' : Pipeline (Publication π α) ρ α}
      {received : List (ρ × Option α)} {publications : List (Publication π α)} :
      h.pipeline? id = some p → p.isOpen = true → p.cancel = (p', received, publications) →
      Turn ⟨h, []⟩ (.cancelled id :: answers id received)
        ⟨h.setPipeline id p', publications.map (·.arrived false)⟩
  /-- The holder of a subscription goes away. -/
  | abandon (h : Hub π ρ α) (id : SubscriptionId) :
      (∀ p, h.pipeline? id = some p → p.isOpen = false) →
      Turn ⟨h, []⟩ [.abandoned id]
        ⟨{ h with pipelines := h.pipelines.filter (·.1 != id) }, []⟩
  /-- A holder begins to wait. -/
  | await {h : Hub π ρ α} {id : SubscriptionId} {p : Pipeline (Publication π α) ρ α}
      (caller : ρ) :
      h.pipeline? id = some p → p.isOpen = true → p.unread = [] →
      Turn ⟨h, []⟩ [] ⟨h.setPipeline id { p with receiver := some caller }, []⟩
  /-- The owner lets go. -/
  | disown (h : Hub π ρ α) : Turn ⟨h, []⟩ [] ⟨{ h with owned := false }, []⟩

/-! ## Chains -/

/-- A sequence of steps with all that is noted of them. -/
inductive Chain (R : Scene π ρ α → List (Event π ρ α) → Scene π ρ α → Prop) :
    Scene π ρ α → List (Event π ρ α) → Scene π ρ α → Prop
  | refl (s : Scene π ρ α) : Chain R s [] s
  | head {s t u : Scene π ρ α} {log log' : List (Event π ρ α)} :
      R s log t → Chain R t log' u → Chain R s (log ++ log') u

/-- A sequence of moves. -/
abbrev Moves : Scene π ρ α → List (Event π ρ α) → Scene π ρ α → Prop := Chain Move

/-- A sequence of turns. -/
abbrev Turns : Scene π ρ α → List (Event π ρ α) → Scene π ρ α → Prop := Chain Turn

section chains

variable {R : Scene π ρ α → List (Event π ρ α) → Scene π ρ α → Prop} {s t u : Scene π ρ α}
  {log log' : List (Event π ρ α)}

theorem Chain.single (h : R s log t) : Chain R s log t := by
  simpa using Chain.head h (.refl t)

/-- A step of which nothing is noted. -/
theorem Chain.silent (h : R s [] t) (h' : Chain R t log u) : Chain R s log u :=
  .head h h'

theorem Chain.trans (h : Chain R s log t) (h' : Chain R t log' u) : Chain R s (log ++ log') u := by
  induction h with
  | refl _ => exact h'
  | head hm _ ih =>
    rw [List.append_assoc]
    exact .head hm (ih h')

/-- **What every step keeps, a chain keeps**, in view of the log so far. -/
theorem Chain.keeps {P : Scene π ρ α → List (Event π ρ α) → Prop}
    (hstep : ∀ {s t : Scene π ρ α} {l log : List (Event π ρ α)}, R s l t → P s log → P t (log ++ l))
    (h : Chain R s log t) (hP : P s log') : P t (log' ++ log) := by
  induction h generalizing log' with
  | refl _ => rwa [List.append_nil]
  | head hm _ ih =>
    rw [← List.append_assoc]
    exact ih (hstep hm hP)

theorem Moves.turns (h : Moves s log t) : Turns s log t := by
  induction h with
  | refl s => exact .refl s
  | head hm _ ih => exact .head (.move hm) ih

end chains

/-! ## What comes of an offer -/

section offers

variable {h : Hub π ρ α} {id : SubscriptionId} {p p' : Pipeline (Publication π α) ρ α}

theorem offer_of_room {received : List (ρ × Option α)} {q : Publication π α}
    (hp : h.pipeline? id = some p) (hopen : p.isOpen = true) (hroom : p.buffer.hasRoom = true)
    (hs : p.store q.value = (p', received)) :
    h.offer id q = (h.setPipeline id p', .stored, received) := by
  simp [offer, hp, hopen, hroom, hs]

theorem offer_of_shut (q : Publication π α)
    (hshut : ∀ p, h.pipeline? id = some p → p.isOpen = false) :
    h.offer id q = (h, .refused, []) := by
  unfold offer
  cases hp : h.pipeline? id with
  | none => rfl
  | some p => simp [hshut p hp]

theorem offer_of_full_lossy (q : Publication π α) (hp : h.pipeline? id = some p)
    (hopen : p.isOpen = true) (hroom : p.buffer.hasRoom = false) (hpol : h.policy = .lossy) :
    h.offer id q = ({ h with dropped := h.dropped + 1 }, .refused, []) := by
  simp [offer, hp, hopen, hroom, hpol]

theorem offer_of_full_reliable (q : Publication π α) (hp : h.pipeline? id = some p)
    (hopen : p.isOpen = true) (hroom : p.buffer.hasRoom = false) (hpol : h.policy = .reliable) :
    h.offer id q = (h.setPipeline id (p.park q q.value), .parked, []) := by
  simp [offer, hp, hopen, hroom, hpol]

end offers

/-! ## Operations made of moves -/

theorem visit_moves (q : Publication π α) (moving : List (Publication π α))
    (ids : List SubscriptionId) (r : Progress π ρ α) (hr : r.parked = false) :
    Moves ⟨r.hub, { q with ahead := ids, accepted := r.accepted } :: moving⟩ (visitLog q ids r)
      ⟨(visit q ids r).hub,
        if (visit q ids r).parked then moving
        else { q with ahead := [], accepted := (visit q ids r).accepted } :: moving⟩ := by
  induction ids generalizing r with
  | nil =>
    simp only [visit, visitLog, hr, Bool.false_eq_true, if_false]
    exact .refl _
  | cons id ahead ih =>
    set traveller : Publication π α := { q with ahead, accepted := r.accepted } with htraveller
    by_cases hshut : ∀ p, r.hub.pipeline? id = some p → p.isOpen = false
    · simp only [visit, visitLog, offerLog, ← htraveller, offer_of_shut traveller hshut]
      exact .silent (.pass rfl hshut) (ih { r with hub := r.hub } hr)
    · push Not at hshut
      obtain ⟨p, hp, hopen⟩ := hshut
      replace hopen : p.isOpen = true := by simpa using hopen
      by_cases hroom : p.buffer.hasRoom = true
      · obtain ⟨p', received, hs⟩ : ∃ p' received, p.store q.value = (p', received) :=
          ⟨_, _, rfl⟩
        have hoffer : r.hub.offer id traveller = _ := offer_of_room hp hopen hroom hs
        simp only [visit, visitLog, offerLog, ← htraveller, hoffer]
        exact .head (.store rfl hp hopen hroom hs) (ih ⟨_, _, false, _⟩ rfl)
      · replace hroom : p.buffer.hasRoom = false := by simpa using hroom
        cases hpol : r.hub.policy with
        | reliable =>
          simp only [visit, visitLog, offerLog, ← htraveller,
            offer_of_full_reliable traveller hp hopen hroom hpol]
          exact .single (.park rfl hp hopen hroom hpol)
        | lossy =>
          simp only [visit, visitLog, offerLog, ← htraveller,
            offer_of_full_lossy traveller hp hopen hroom hpol]
          exact .silent (.miss rfl hp hopen hroom hpol) (ih { r with hub := _ } hr)

theorem publishEach_moves (q : Publication π α) (moving : List (Publication π α))
    (values : List α) (r : Progress π ρ α) (hr : r.parked = false) :
    Moves ⟨r.hub, { q with ahead := [], accepted := r.accepted, later := values } :: moving⟩
      (publishEachLog q.caller q.order values r)
      ⟨(publishEach q.caller q.order values r).hub, moving⟩ := by
  induction values generalizing r q with
  | nil => exact .single (.finish rfl rfl)
  | cons v later ih =>
    unfold publishEach publishEachLog
    by_cases hc : r.hub.closed = true
    · rw [if_pos hc, if_pos hc]
      exact .silent (.skip rfl rfl hc) (ih q r hr)
    · rw [if_neg hc, if_neg hc]
      set hub : Hub π ρ α := { r.hub with published := r.hub.published + 1 } with hhub
      have hvisit := visit_moves ⟨q.caller, q.order, v, [], 0, later⟩ moving (hub.targets q.order)
        { r with hub } hr
      have hopen : r.hub.closed = false := by simpa using hc
      by_cases hpark : (visit ⟨q.caller, q.order, v, [], 0, later⟩ (hub.targets q.order)
          { r with hub }).parked = true
      · rw [if_pos hpark] at hvisit
        simp only [hpark, if_true, List.append_nil]
        exact Chain.silent (.next rfl rfl hopen) hvisit
      · rw [if_neg hpark] at hvisit
        simp only [hpark]
        exact Chain.silent (.next rfl rfl hopen) (hvisit.trans
          (ih ⟨q.caller, q.order, v, [], 0, later⟩ _ (by simpa using hpark)))

theorem resume_moves (h : Hub π ρ α) (q : Publication π α) (moving : List (Publication π α))
    (stored : Bool) :
    Moves ⟨h, q.arrived stored :: moving⟩ (h.resumeLog q stored)
      ⟨(h.resume q stored).hub, moving⟩ := by
  set start : Progress π ρ α := ⟨h, q.accepted + (if stored then 1 else 0), false, []⟩ with hstart
  have hvisit := visit_moves q moving q.ahead start rfl
  rw [resumeLog]
  by_cases hpark : (visit q q.ahead start).parked = true
  · have hres : h.resume q stored = visit q q.ahead start := if_pos hpark
    rw [if_pos hpark] at hvisit
    rw [hres, if_pos hpark, List.append_nil]
    exact hvisit
  · have hres : h.resume q stored = publishEach q.caller q.order q.later (visit q q.ahead start) :=
      if_neg hpark
    rw [if_neg hpark] at hvisit
    rw [hres, if_neg hpark]
    exact hvisit.trans (publishEach_moves q moving q.later _ (by simpa using hpark))

theorem resumeAll_moves (stored : Bool) (qs : List (Publication π α)) (reply : Reply π ρ α β) :
    Moves ⟨reply.hub, qs.map (·.arrived stored)⟩ (resumeAllLog stored qs reply.hub)
      ⟨(resumeAll stored qs reply).hub, []⟩ := by
  induction qs generalizing reply with
  | nil => exact .refl _
  | cons q rest ih =>
    exact (resume_moves reply.hub q _ stored).trans
      (ih { reply with hub := _, received := _, returned := _ })

theorem close_moves (h : Hub π ρ α) : Moves ⟨h, []⟩ h.closeLog ⟨h.close.hub, []⟩ := by
  by_cases hc : h.closed = true
  · rw [closeLog, close, if_pos hc, if_pos hc]
    exact .refl _
  · rw [closeLog, close, if_neg hc, if_neg hc]
    rcases hret : retireAll h.pipelines with ⟨pipelines, received, publications⟩
    exact .head (.shut (by simpa using hc) hret)
      (resumeAll_moves false publications
        (⟨{ h with pipelines, closed := true }, (), received, []⟩ : Reply π ρ α Unit))

theorem settle_moves (reply : Reply π ρ α β) :
    Moves ⟨reply.hub, []⟩ reply.hub.settleLog ⟨(settle reply).hub, []⟩ := by
  unfold settle settleLog
  split
  · exact .refl _
  · exact close_moves reply.hub

theorem tryReceive_moves (h : Hub π ρ α) (id : SubscriptionId) :
    Moves ⟨h, []⟩ (h.tryReceiveLog id) ⟨(h.tryReceive id).hub, []⟩ := by
  cases hp : h.pipeline? id with
  | none =>
    simp only [tryReceive, tryReceiveLog, hp]
    exact .refl _
  | some p =>
    simp only [tryReceive, tryReceiveLog, hp]
    rcases hread : p.tryReceive with ⟨p', reception, publication⟩
    exact (Chain.head (.read hp hread) (resumeAll_moves true publication.toList
      (⟨h.setPipeline id p', reception, [], []⟩ : Reply π ρ α (Reception α)))).trans
        (settle_moves _)

theorem drainUpTo_moves (id : SubscriptionId) (fuel : Nat) (acc : List α)
    (reply : Reply π ρ α Unit) :
    Moves ⟨reply.hub, []⟩ (drainUpToLog id fuel reply.hub)
      ⟨(drainUpTo id fuel acc reply).hub, []⟩ := by
  induction fuel generalizing acc reply with
  | zero => exact .refl _
  | succ fuel ih =>
    simp only [drainUpTo, drainUpToLog]
    have hread := reply.hub.tryReceive_moves id
    cases (reply.hub.tryReceive id).result with
    | value v => exact hread.trans (ih (v :: acc) ⟨_, (), _, _⟩)
    | empty => exact hread.trans (.refl _)
    | ended => exact hread.trans (.refl _)

theorem drain_moves (h : Hub π ρ α) (id : SubscriptionId) :
    Moves ⟨h, []⟩ (h.drainLog id) ⟨(h.drain id).hub, []⟩ :=
  drainUpTo_moves id _ [] ⟨h, (), [], []⟩

/-! ## Operations made of turns -/

theorem subscribe_turns (h : Hub π ρ α) (n : Nat) :
    Turns ⟨h, []⟩ [] ⟨(h.subscribe n).1, []⟩ := by
  unfold subscribe
  by_cases hc : h.closed = true
  · rw [if_pos hc]
    exact .refl _
  · rw [if_neg hc]
    exact .single (.subscribe h n (by simpa using hc))

/-- Publishes called on a closed hub return at once. -/
theorem publishEach_of_closed (caller : π) (order : List SubscriptionId) (values : List α)
    {r : Progress π ρ α} (hc : r.hub.closed = true) :
    publishEach caller order values r = r ∧
      publishEachLog caller order values r = [.returned caller r.accepted] := by
  induction values with
  | nil => exact ⟨rfl, rfl⟩
  | cons v later ih =>
    rw [publishEach, publishEachLog, if_pos hc, if_pos hc]
    exact ih

/-- The moves of a publish after its call. -/
theorem publishAll_moves {h : Hub π ρ α} (hc : h.closed = false) (caller : π)
    (order : List SubscriptionId) (v : α) (later : List α) :
    ∃ log, h.publishAllLog caller order (v :: later) = .called caller :: log ∧
      Moves ⟨{ h with published := h.published + 1 },
          [⟨caller, order, v, h.targets order, 0, later⟩]⟩ log
        ⟨(h.publishAll caller order (v :: later)).hub, []⟩ := by
  refine ⟨_, rfl, ?_⟩
  have hc' : ¬ h.closed = true := by simpa using hc
  set hub : Hub π ρ α := { h with published := h.published + 1 }
  have hvisit := visit_moves ⟨caller, order, v, [], 0, later⟩ [] (hub.targets order)
    ⟨hub, 0, false, []⟩ rfl
  simp only [publishAll, publishEach, publishEachLog]
  rw [if_neg hc', if_neg hc']
  by_cases hpark : (visit ⟨caller, order, v, [], 0, later⟩ (hub.targets order)
      ⟨hub, 0, false, []⟩).parked = true
  · rw [if_pos hpark] at hvisit
    rw [if_pos hpark, if_pos hpark, List.append_nil]
    exact hvisit
  · rw [if_neg hpark] at hvisit
    rw [if_neg hpark, if_neg hpark]
    exact hvisit.trans (publishEach_moves ⟨caller, order, v, [], 0, later⟩ [] later _
      (by simpa using hpark))

theorem publishAll_turns (h : Hub π ρ α) (caller : π) (order : List SubscriptionId)
    (values : List α) :
    Turns ⟨h, []⟩ (h.publishAllLog caller order values)
      ⟨(h.publishAll caller order values).hub, []⟩ := by
  by_cases hc : h.closed = true
  · have hnone := publishEach_of_closed (r := ⟨h, 0, false, []⟩) caller order values hc
    rw [publishAllLog, publishAll, hnone.1, hnone.2]
    exact .single (.decline h caller)
  · cases values with
    | nil => exact .single (.decline h caller)
    | cons v later =>
      have hc' : h.closed = false := by simpa using hc
      obtain ⟨log, hlog, hmoves⟩ := publishAll_moves hc' caller order v later
      rw [hlog]
      exact .head (.call h caller order v later hc') hmoves.turns

theorem cancel_turns (h : Hub π ρ α) (id : SubscriptionId) :
    Turns ⟨h, []⟩ (h.cancelLog id) ⟨(h.cancel id).hub, []⟩ := by
  cases hp : h.pipeline? id with
  | none =>
    simp only [cancel, cancelLog, hp]
    exact .refl _
  | some p =>
    simp only [cancel, cancelLog, hp]
    by_cases hopen : p.isOpen = true
    · rw [if_pos hopen, if_pos hopen]
      rcases hcancel : p.cancel with ⟨p', received, publications⟩
      exact (Chain.head (.cancel hp hopen hcancel) (resumeAll_moves false publications
        (⟨h.setPipeline id p', (), received, []⟩ : Reply π ρ α Unit)).turns).trans
          (settle_moves _).turns
    · rw [if_neg hopen, if_neg hopen]
      exact .refl _

theorem disown_turns (h : Hub π ρ α) : Turns ⟨h, []⟩ h.disownLog ⟨h.disown.hub, []⟩ :=
  .silent (.disown h) (settle_moves ⟨{ h with owned := false }, (), [], []⟩).turns

end Hub

end Switchboard
