import Mathlib.Data.List.Nodup
import Switchboard.Proofs.Hub.Account
import Switchboard.Proofs.Hub.Flight

/-!
# Runs of a hub

What the users of a hub do to it, one step after another. Each step is a call of its own, named by
its number in the run; the calls of publishes and of receives are named so too.

**Steps.** A step on a handle on which a receive waits is refused, but for a cancel. A step on the
hub is refused once its owner has let go.

**Main statements.** A run is a sequence of turns (`Run.extend_turns`), so it keeps the hub sound
(`Run.Good`), and a publish step is the only one that calls a publish, under its own number
(`Step.callsIn_log`).
-/

namespace Switchboard.Hub

variable {π ρ α β γ : Type}

/-! ## Anchored hubs -/

/-- A hub without an owner is closed, unless a publish is under way in it. -/
def Anchored (h : Hub π ρ α) : Prop :=
  h.owned = true ∨ h.closed = true ∨ h.parkedPublications ≠ []

theorem Turn.closed {s t : Scene π ρ α} {log : List (Event π ρ α)} (h : Turn s log t)
    (hc : s.hub.closed = true) : t.hub.closed = true := by
  cases h with
  | move h => cases h <;> first | exact hc | rfl
  | _ => exact hc

theorem Turns.closed {s t : Scene π ρ α} {log : List (Event π ρ α)} (h : Turns s log t)
    (hc : s.hub.closed = true) : t.hub.closed = true := by
  induction h with
  | refl _ => exact hc
  | head hm _ ih => exact ih (hm.closed hc)

theorem close_closed (h : Hub π ρ α) : h.close.hub.closed = true := by
  unfold close
  split
  · rename_i hc
    exact hc
  · rcases retireAll h.pipelines with ⟨pipelines, received, publications⟩
    have hmoves := resumeAll_moves false publications
      (⟨{ h with pipelines, closed := true }, (), received, []⟩ : Reply π ρ α Unit)
    exact hmoves.turns.closed rfl

theorem settle_anchored (reply : Reply π ρ α β) : (settle reply).hub.Anchored := by
  unfold settle
  split
  · rename_i h
    rw [Bool.or_eq_true, Bool.not_eq_true', List.isEmpty_eq_false_iff] at h
    exact h.imp id Or.inr
  · exact Or.inr (Or.inl (close_closed _))

theorem close_of_closed {h : Hub π ρ α} (hc : h.closed = true) : h.close = ⟨h, (), [], []⟩ :=
  if_pos hc

/-- Settling changes nothing in an anchored hub. -/
theorem settle_of_anchored {reply : Reply π ρ α β} (ha : reply.hub.Anchored) :
    settle reply = reply := by
  unfold settle
  split
  · rfl
  · rename_i h
    rw [Bool.or_eq_true, Bool.not_eq_true', List.isEmpty_eq_false_iff, not_or] at h
    have hc : reply.hub.closed = true := by
      rcases ha with ha | ha | ha
      · exact absurd ha h.1
      · exact ha
      · exact absurd ha h.2
    rw [close_of_closed hc]
    simp

/-! ## Receiving -/

section receiving

variable {h : Hub π ρ α} {id : SubscriptionId} {p : Pipeline (Publication π α) ρ α}

theorem setPipeline_self (hs : h.Sound) (hp : h.pipeline? id = some p) :
    h.setPipeline id p = h := by
  obtain ⟨l₁, l₂, hl, hset⟩ := exists_split hs.nodup hp
  have hpipelines : (h.setPipeline id p).pipelines = h.pipelines := (hset p).trans hl.symm
  show ({ h with pipelines := (h.setPipeline id p).pipelines } : Hub π ρ α) = h
  rw [hpipelines]

/-- Without unread values a receive changes nothing. -/
theorem tryReceive_of_nil (hs : h.Sound) (ha : h.Anchored) (hp : h.pipeline? id = some p)
    (hu : p.unread = []) :
    h.tryReceive id = ⟨h, if p.buffer.closed then .ended else .empty, [], []⟩ := by
  simp only [tryReceive, hp, Pipeline.tryReceive_nil hu, setPipeline_self hs hp]
  exact settle_of_anchored ha

/-- With unread values a receive gives the oldest. -/
theorem tryReceive_result_of_cons (hs : h.Sound) (hp : h.pipeline? id = some p) {v : α}
    {rest : List α} (hu : p.unread = v :: rest) : (h.tryReceive id).result = .value v := by
  obtain ⟨p', hread, -⟩ := (hs.fits_of hp).settled.tryReceive hu
  simp only [tryReceive, hp, hread]
  rw [(settle_reply _).1, (resumeAll_reply true _ _).1]

theorem receive_turns (hs : h.Sound) (ha : h.Anchored) (caller : ρ) :
    Turns ⟨h, []⟩ (h.tryReceiveLog id) ⟨(h.receive id caller).hub, []⟩ := by
  have hmoves := (h.tryReceive_moves id).turns
  cases hp : h.pipeline? id with
  | none =>
    have hread : h.tryReceive id = ⟨h, .ended, [], []⟩ := by simp only [tryReceive, hp]
    simpa only [receive, hread] using hmoves
  | some p =>
    cases hu : p.unread with
    | cons v rest =>
      simpa only [receive, tryReceive_result_of_cons hs hp hu] using hmoves
    | nil =>
      have hread := tryReceive_of_nil hs ha hp hu
      by_cases hc : p.buffer.closed = true
      · rw [if_pos hc] at hread
        simpa only [receive, hread] using hmoves
      · rw [if_neg hc] at hread
        rw [hread] at hmoves
        simp only [receive, hread, hp]
        have hawait : Turn ⟨h, []⟩ ([] : List (Event π ρ α))
            ⟨h.setPipeline id { p with receiver := some caller }, []⟩ :=
          .await caller hp (by simpa [Pipeline.isOpen] using hc) hu
        have := hmoves.trans (.single hawait)
        rwa [List.append_nil] at this

theorem parkedPublications_setPipeline (hs : h.Sound) (hp : h.pipeline? id = some p)
    {p' : Pipeline (Publication π α) ρ α} (hw : p'.waiting = p.waiting) :
    (h.setPipeline id p').parkedPublications = h.parkedPublications := by
  obtain ⟨l₁, l₂, hl, hset⟩ := exists_split hs.nodup hp
  rw [parkedPublications, parkedPublications, hset, hl]
  simp only [List.flatMap_append, List.flatMap_cons, Pipeline.parked, hw]

theorem setPipeline_anchored (hs : h.Sound) (ha : h.Anchored) (hp : h.pipeline? id = some p)
    {p' : Pipeline (Publication π α) ρ α} (hw : p'.waiting = p.waiting) :
    (h.setPipeline id p').Anchored := by
  have hparked := parkedPublications_setPipeline hs hp hw
  exact ha.imp (fun h => h) fun h => h.imp (fun h => h) fun h => by rwa [hparked]

end receiving

/-! ## Steps -/

/-- What a user of a hub may do. -/
inductive Step (α : Type) where
  | subscribe (n : Nat)
  /-- Publish a value, visiting the subscriptions in `order` first. -/
  | publish (order : List SubscriptionId) (value : α)
  /-- Publish several values in one call. -/
  | burst (order : List SubscriptionId) (values : List α)
  /-- Receive, waiting for a value. -/
  | receive (id : SubscriptionId)
  /-- Receive without waiting. -/
  | tryReceive (id : SubscriptionId)
  /-- Receive without waiting until nothing more comes. -/
  | drain (id : SubscriptionId)
  | cancel (id : SubscriptionId)
  /-- Let go of a handle. -/
  | abandon (id : SubscriptionId)
  | close
  /-- Let go of the hub. -/
  | disown
deriving DecidableEq, Repr

/-- What a step comes to at once. -/
inductive Answer (α : Type) where
  | subscribed (id : SubscriptionId)
  | published (result : Outcome Nat)
  | received (result : Outcome (Option α))
  | tried (result : Reception α)
  | drained (result : Drained α)
  | done
  /-- A receive waits on the handle. -/
  | busy
  /-- The owner has let go of the hub. -/
  | gone
deriving DecidableEq, Repr

/-- Change the result of a reply. -/
def Reply.map (f : β → γ) (reply : Reply π ρ α β) : Reply π ρ α γ :=
  { reply with result := f reply.result }

/-- Do something with the hub, which only its owner may. -/
def byOwner (h : Hub π ρ α) (f : Reply π ρ α (Answer α)) : Reply π ρ α (Answer α) :=
  if h.owned then f else ⟨h, .gone, [], []⟩

/-- Do something with a handle, unless a receive waits on it. -/
def unlessBusy (h : Hub π ρ α) (id : SubscriptionId) (f : Reply π ρ α (Answer α)) :
    Reply π ρ α (Answer α) :=
  if h.isWaiting id then ⟨h, .busy, [], []⟩ else f

/-- A step made by a call. -/
def Step.act (h : Hub Nat Nat α) (call : Nat) : Step α → Reply Nat Nat α (Answer α)
  | subscribe n => h.byOwner ⟨(h.subscribe n).1, .subscribed (h.subscribe n).2, [], []⟩
  | publish order v => h.byOwner ((h.publishAll call order [v]).map .published)
  | burst order vs => h.byOwner ((h.publishAll call order vs).map .published)
  | receive id => h.unlessBusy id ((h.receive id call).map .received)
  | tryReceive id => h.unlessBusy id ((h.tryReceive id).map .tried)
  | drain id => h.unlessBusy id ((h.drain id).map .drained)
  | cancel id => (h.cancel id).map fun _ => .done
  | abandon id => h.unlessBusy id ((h.abandon id).map fun _ => .done)
  | close => h.byOwner (h.close.map fun _ => .done)
  | disown => h.byOwner (h.disown.map fun _ => .done)

/-- The events of a step. -/
def Step.log (h : Hub Nat Nat α) (call : Nat) : Step α → List (Event Nat Nat α)
  | subscribe _ => []
  | publish order v => if h.owned then h.publishAllLog call order [v] else []
  | burst order vs => if h.owned then h.publishAllLog call order vs else []
  | receive id | tryReceive id => if h.isWaiting id then [] else h.tryReceiveLog id
  | drain id => if h.isWaiting id then [] else h.drainLog id
  | cancel id => h.cancelLog id
  | abandon id => if h.isWaiting id then [] else h.abandonLog id
  | close => if h.owned then h.closeLog else []
  | disown => if h.owned then h.disownLog else []

/-- **What a step comes to**, with its reply and its events: it is refused, and nothing happens, or
its operation is carried out. -/
inductive Step.Yields (h : Hub Nat Nat α) (call : Nat) :
    Step α → Reply Nat Nat α (Answer α) → List (Event Nat Nat α) → Prop where
  | gone {s : Step α} : h.owned = false → Yields h call s ⟨h, .gone, [], []⟩ []
  | busy {s : Step α} {id : SubscriptionId} :
      h.isWaiting id = true → Yields h call s ⟨h, .busy, [], []⟩ []
  | subscribe (n : Nat) : h.owned = true →
      Yields h call (.subscribe n) ⟨(h.subscribe n).1, .subscribed (h.subscribe n).2, [], []⟩ []
  | publish (order : List SubscriptionId) (v : α) : h.owned = true →
      Yields h call (.publish order v) ((h.publishAll call order [v]).map .published)
        (h.publishAllLog call order [v])
  | burst (order : List SubscriptionId) (vs : List α) : h.owned = true →
      Yields h call (.burst order vs) ((h.publishAll call order vs).map .published)
        (h.publishAllLog call order vs)
  | receive (id : SubscriptionId) : h.isWaiting id = false →
      Yields h call (.receive id) ((h.receive id call).map .received) (h.tryReceiveLog id)
  | tryReceive (id : SubscriptionId) : h.isWaiting id = false →
      Yields h call (.tryReceive id) ((h.tryReceive id).map .tried) (h.tryReceiveLog id)
  | drain (id : SubscriptionId) : h.isWaiting id = false →
      Yields h call (.drain id) ((h.drain id).map .drained) (h.drainLog id)
  | cancel (id : SubscriptionId) :
      Yields h call (.cancel id) ((h.cancel id).map fun _ => .done) (h.cancelLog id)
  | abandon (id : SubscriptionId) : h.isWaiting id = false →
      Yields h call (.abandon id) ((h.abandon id).map fun _ => .done) (h.abandonLog id)
  | close : h.owned = true → Yields h call .close (h.close.map fun _ => .done) h.closeLog
  | disown : h.owned = true → Yields h call .disown (h.disown.map fun _ => .done) h.disownLog

theorem Step.yields (h : Hub Nat Nat α) (call : Nat) (s : Step α) :
    s.Yields h call (s.act h call) (s.log h call) := by
  have howner : ∀ {reply : Reply Nat Nat α (Answer α)} {log : List (Event Nat Nat α)},
      (h.owned = true → s.Yields h call reply log) →
      s.Yields h call (h.byOwner reply) (if h.owned then log else []) := by
    intro reply log hy
    unfold byOwner
    split
    · exact hy ‹_›
    · exact .gone (Bool.eq_false_iff.mpr ‹_›)
  have hbusy : ∀ {id : SubscriptionId} {reply : Reply Nat Nat α (Answer α)}
      {log : List (Event Nat Nat α)}, (h.isWaiting id = false → s.Yields h call reply log) →
      s.Yields h call (h.unlessBusy id reply) (if h.isWaiting id then [] else log) := by
    intro id reply log hy
    unfold unlessBusy
    split
    · exact .busy ‹_›
    · exact hy (Bool.eq_false_iff.mpr ‹_›)
  cases s with
  | subscribe n =>
    have hy := howner (.subscribe n)
    rwa [ite_self] at hy
  | publish order v => exact howner (.publish order v)
  | burst order vs => exact howner (.burst order vs)
  | receive id => exact hbusy (.receive id)
  | tryReceive id => exact hbusy (.tryReceive id)
  | drain id => exact hbusy (.drain id)
  | cancel id => exact .cancel id
  | abandon id => exact hbusy (.abandon id)
  | close => exact howner .close
  | disown => exact howner .disown

/-! ## What a step keeps -/

/-- A move changes neither the owner nor the names given out. -/
theorem Moves.frame {s t : Scene π ρ α} {log : List (Event π ρ α)} (h : Moves s log t) :
    t.hub.owned = s.hub.owned ∧ t.hub.lastId = s.hub.lastId := by
  induction h with
  | refl _ => exact ⟨rfl, rfl⟩
  | head hm _ ih =>
    refine ⟨ih.1.trans ?_, ih.2.trans ?_⟩
    all_goals cases hm <;> rfl

section operations

variable {h : Hub π ρ α} {id : SubscriptionId}

theorem publishAll_frame (h : Hub π ρ α) (caller : π) (order : List SubscriptionId)
    (values : List α) :
    (h.publishAll caller order values).hub.owned = h.owned ∧
      (h.publishAll caller order values).hub.lastId = h.lastId := by
  by_cases hc : h.closed = true
  · rw [publishAll, (publishEach_of_closed (r := ⟨h, 0, false, []⟩) caller order values hc).1]
    exact ⟨rfl, rfl⟩
  · cases values with
    | nil => exact ⟨rfl, rfl⟩
    | cons v later =>
      obtain ⟨log, -, hmoves⟩ := publishAll_moves (by simpa using hc) caller order v later
      exact hmoves.frame

theorem receive_lastId (h : Hub π ρ α) (id : SubscriptionId) (caller : ρ) :
    (h.receive id caller).hub.lastId = h.lastId := by
  have hread : (h.tryReceive id).hub.lastId = h.lastId := (h.tryReceive_moves id).frame.2
  simp only [receive]
  split
  all_goals exact hread

theorem cancel_lastId (h : Hub π ρ α) (id : SubscriptionId) :
    (h.cancel id).hub.lastId = h.lastId := by
  unfold cancel
  cases h.pipeline? id with
  | none => rfl
  | some p =>
    by_cases hopen : p.isOpen = true
    · simp only [if_pos hopen]
      exact (settle_moves _).frame.2.trans (resumeAll_moves false p.cancel.2.2
        (⟨h.setPipeline id p.cancel.1, (), p.cancel.2.1, []⟩ : Reply π ρ α Unit)).frame.2
    · simp only [if_neg hopen]

theorem tryReceive_anchored (ha : h.Anchored) : (h.tryReceive id).hub.Anchored := by
  cases hp : h.pipeline? id with
  | none => simpa only [tryReceive, hp] using ha
  | some p =>
    simp only [tryReceive, hp]
    exact settle_anchored _

theorem receive_anchored (hs : h.Sound) (ha : h.Anchored) (caller : ρ) :
    (h.receive id caller).hub.Anchored := by
  have hread : (h.tryReceive id).hub.Anchored := tryReceive_anchored ha
  cases hp : h.pipeline? id with
  | none =>
    have heq : h.tryReceive id = ⟨h, .ended, [], []⟩ := by simp only [tryReceive, hp]
    simpa only [receive, heq] using ha
  | some p =>
    cases hu : p.unread with
    | cons v rest => simpa only [receive, tryReceive_result_of_cons hs hp hu] using hread
    | nil =>
      have heq := tryReceive_of_nil hs ha hp hu
      by_cases hc : p.buffer.closed = true
      · rw [if_pos hc] at heq
        simpa only [receive, heq] using ha
      · rw [if_neg hc] at heq
        simp only [receive, heq, hp]
        exact setPipeline_anchored hs ha hp rfl

theorem drainUpTo_anchored (fuel : Nat) (acc : List α) (reply : Reply π ρ α Unit)
    (ha : reply.hub.Anchored) : (drainUpTo id fuel acc reply).hub.Anchored := by
  induction fuel generalizing acc reply with
  | zero => exact ha
  | succ fuel ih =>
    have hread : (reply.hub.tryReceive id).hub.Anchored := tryReceive_anchored ha
    simp only [drainUpTo]
    cases (reply.hub.tryReceive id).result with
    | value v => exact ih (v :: acc) ⟨_, (), _, _⟩ hread
    | empty => exact hread
    | ended => exact hread

theorem cancel_anchored (ha : h.Anchored) : (h.cancel id).hub.Anchored := by
  cases hp : h.pipeline? id with
  | none => simpa only [cancel, hp] using ha
  | some p =>
    by_cases hopen : p.isOpen = true
    · simp only [cancel, hp, if_pos hopen]
      exact settle_anchored _
    · simpa only [cancel, hp, if_neg hopen] using ha

/-- After a cancel the subscription is not registered. -/
theorem cancel_not_registered (hs : h.Sound) : ¬ (h.cancel id).hub.Registered id := by
  cases hp : h.pipeline? id with
  | none =>
    simp only [cancel, hp]
    exact not_registered_of_none hp
  | some p =>
    by_cases hopen : p.isOpen = true
    · simp only [cancel, hp, if_pos hopen]
      rcases hcancel : p.cancel with ⟨p', received, publications⟩
      have hturn : Turn ⟨h, []⟩ _ _ := .cancel hp hopen hcancel
      have hmoves : Turns _ _ _ := (resumeAll_moves false publications
        (⟨h.setPipeline id p', (), received, []⟩ : Reply π ρ α Unit)).turns.trans
          (settle_moves _).turns
      refine hmoves.not_registered (hturn.sound hs) (hs.named _ (mem_of_pipeline? hp)).2 ?_
      have hshut : p'.isOpen = false := by
        rw [(hs.fits_of hp).settled.cancel_eq, Prod.mk.injEq] at hcancel
        rw [← hcancel.1]
        rfl
      refine not_registered_of_shut (p := p') ?_ hshut
      exact (pipeline?_setPipeline hp p' id).trans (if_pos rfl)
    · simp only [cancel, hp, if_neg hopen]
      exact not_registered_of_shut hp (by simpa using hopen)

theorem abandon_turns (hs : h.Sound) :
    Turns ⟨h, []⟩ (h.abandonLog id) ⟨(h.abandon id).hub, []⟩ :=
  (h.cancel_turns id).trans
    (.single (.abandon _ id (not_registered_iff.mp (cancel_not_registered hs))))

theorem abandon_anchored (hs : h.Sound) (ha : h.Anchored) : (h.abandon id).hub.Anchored := by
  have hs' : (h.cancel id).hub.Sound := (h.cancel_turns id).sound hs
  have hcancel : (h.cancel id).hub.Anchored := cancel_anchored ha
  rcases hcancel with ha | ha | ha
  · exact Or.inl ha
  · exact Or.inr (Or.inl ha)
  · refine Or.inr (Or.inr ?_)
    obtain ⟨q, hq⟩ := List.exists_mem_of_ne_nil _ ha
    obtain ⟨⟨i, p⟩, he, hq⟩ := List.mem_flatMap.mp hq
    -- A publish is parked on a registered subscription only, and the one that went is not.
    have hopen : p.isOpen = true := by
      by_contra hshut
      have hc : p.buffer.closed = true := by simpa [Pipeline.isOpen] using hshut
      have hw : p.waiting = ∅ := ((hs'.fits _ he).settled.idle_of_closed hc).1
      rw [Pipeline.parked, hw] at hq
      cases hq
    have hne : i ≠ id := by
      rintro rfl
      exact cancel_not_registered hs ⟨p, hs'.pipeline?_of_mem he, hopen⟩
    exact List.ne_nil_of_mem
      (List.mem_flatMap.mpr ⟨(i, p), List.mem_filter.mpr ⟨he, by simpa using hne⟩, hq⟩)

end operations

/-- What holds of a hub between two steps. -/
structure Good (h : Hub π ρ α) : Prop where
  sound : h.Sound
  anchored : h.Anchored

theorem good_new (label : String) (policy : Policy) : (new label policy : Hub π ρ α).Good :=
  ⟨sound_new label policy, Or.inl rfl⟩

section steps

variable {h : Hub Nat Nat α} {call : Nat}

/-- **A step is a sequence of turns.** -/
theorem Step.turns (hg : h.Good) (s : Step α) :
    Turns ⟨h, []⟩ (s.log h call) ⟨(s.act h call).hub, []⟩ := by
  have hy := s.yields h call
  generalize s.act h call = reply, s.log h call = log at hy ⊢
  cases hy with
  | gone _ | busy _ => exact .refl _
  | subscribe n _ => exact h.subscribe_turns n
  | publish order v _ => exact h.publishAll_turns call order [v]
  | burst order vs _ => exact h.publishAll_turns call order vs
  | receive id _ => exact receive_turns hg.sound hg.anchored call
  | tryReceive id _ => exact (h.tryReceive_moves id).turns
  | drain id _ => exact (h.drain_moves id).turns
  | cancel id => exact h.cancel_turns id
  | abandon id _ => exact abandon_turns hg.sound
  | close _ => exact h.close_moves.turns
  | disown _ => exact h.disown_turns

theorem Step.anchored (hg : h.Good) (s : Step α) : (s.act h call).hub.Anchored := by
  have hy := s.yields h call
  generalize s.act h call = reply, s.log h call = log at hy ⊢
  cases hy with
  | gone _ | busy _ => exact hg.anchored
  | subscribe n ho =>
    refine Or.inl ?_
    show (Hub.subscribe h n).1.owned = true
    unfold Hub.subscribe
    split <;> exact ho
  | publish order v ho => exact Or.inl ((publishAll_frame ..).1.trans ho)
  | burst order vs ho => exact Or.inl ((publishAll_frame ..).1.trans ho)
  | receive id _ => exact receive_anchored hg.sound hg.anchored call
  | tryReceive id _ => exact tryReceive_anchored hg.anchored
  | drain id _ => exact drainUpTo_anchored _ [] _ hg.anchored
  | cancel id => exact cancel_anchored hg.anchored
  | abandon id _ => exact abandon_anchored hg.sound hg.anchored
  | close _ => exact Or.inr (Or.inl (close_closed h))
  | disown _ => exact settle_anchored _

theorem Step.good (hg : h.Good) (s : Step α) : (s.act h call).hub.Good :=
  ⟨(s.turns hg).sound hg.sound, s.anchored hg⟩

/-- Only a subscribe gives out a name. -/
theorem Step.lastId_of_ne {s : Step α} (hne : ∀ n, s ≠ .subscribe n) :
    (s.act h call).hub.lastId = h.lastId := by
  have hy := s.yields h call
  generalize s.act h call = reply, s.log h call = log at hy ⊢
  cases hy with
  | gone _ | busy _ => rfl
  | subscribe n _ => exact absurd rfl (hne n)
  | publish order v _ => exact (publishAll_frame ..).2
  | burst order vs _ => exact (publishAll_frame ..).2
  | receive id _ => exact h.receive_lastId id call
  | tryReceive id _ => exact (h.tryReceive_moves id).frame.2
  | drain id _ => exact (h.drain_moves id).frame.2
  | cancel id | abandon id _ => exact h.cancel_lastId id
  | close _ => exact h.close_moves.frame.2
  | disown _ =>
    exact (settle_moves (⟨{ h with owned := false }, (), [], []⟩ : Reply Nat Nat α Unit)).frame.2

end steps

/-! ## What a step notes -/

theorem Moves.callsIn {s t : Scene π ρ α} {log : List (Event π ρ α)} (h : Moves s log t) :
    callsIn log = [] := by
  induction h with
  | refl _ => rfl
  | head hm _ ih =>
    rw [callsIn_append, ih, List.append_nil]
    cases hm with
    | @read _ _ _ _ reception publication _ _ => cases reception <;> cases publication <;> rfl
    | @shut h _ _ _ _ _ =>
      rw [retireAllLog, Hub.callsIn, List.filterMap_flatMap, List.flatMap_eq_nil_iff]
      intro e _
      split
      · exact callsIn_answers e.1 e.2.retire.2.1
      · rfl
    | store _ _ _ _ _ => exact callsIn_answers _ _
    | _ => rfl

theorem Moves.not_cutIn {s t : Scene π ρ α} {log : List (Event π ρ α)} (h : Moves s log t)
    (id : SubscriptionId) : ¬ CutIn id log := by
  have hans : ∀ (i : SubscriptionId) (received : List (ρ × Option α)),
      ¬ CutIn id (answers i received : List (Event π ρ α)) := by
    simp [CutIn, answers]
  induction h with
  | refl _ => simp [CutIn]
  | head hm _ ih =>
    rw [cutIn_append, not_or]
    refine ⟨?_, ih⟩
    cases hm with
    | @read _ _ _ _ reception publication _ _ =>
      cases reception <;> cases publication <;> simp [CutIn, readLog]
    | @shut h _ _ _ _ _ =>
      simp only [CutIn, retireAllLog, List.mem_flatMap, not_or, not_exists, not_and]
      refine ⟨fun e _ hmem => ?_, fun e _ hmem => ?_⟩
      · split at hmem
        · exact hans _ _ (Or.inl hmem)
        · cases hmem
      · split at hmem
        · exact hans _ _ (Or.inr hmem)
        · cases hmem
    | store _ _ _ _ _ => simpa [CutIn] using hans _ _
    | _ => simp [CutIn]

theorem callsIn_publishAllLog (h : Hub π ρ α) (caller : π) (order : List SubscriptionId)
    (values : List α) : callsIn (h.publishAllLog caller order values) = [caller] := by
  by_cases hc : h.closed = true
  · rw [publishAllLog, (publishEach_of_closed (r := ⟨h, 0, false, []⟩) caller order values hc).2]
    rfl
  · cases values with
    | nil => rfl
    | cons v later =>
      obtain ⟨log, hlog, hmoves⟩ := publishAll_moves (by simpa using hc) caller order v later
      rw [hlog]
      exact congrArg (caller :: ·) hmoves.callsIn

theorem not_cutIn_publishAllLog (h : Hub π ρ α) (caller : π) (order : List SubscriptionId)
    (values : List α) (id : SubscriptionId) : ¬ CutIn id (h.publishAllLog caller order values) := by
  by_cases hc : h.closed = true
  · rw [publishAllLog, (publishEach_of_closed (r := ⟨h, 0, false, []⟩) caller order values hc).2]
    simp [CutIn]
  · cases values with
    | nil => simp [CutIn, publishAllLog, publishEachLog]
    | cons v later =>
      obtain ⟨log, hlog, hmoves⟩ := publishAll_moves (by simpa using hc) caller order v later
      rw [hlog]
      simpa [CutIn] using hmoves.not_cutIn id

/-- A cancel calls no publish, and cuts off its own subscription only, which it does not
abandon. -/
theorem cancelLog_spec (h : Hub π ρ α) (id : SubscriptionId) :
    callsIn (h.cancelLog id) = [] ∧ (∀ i, .abandoned i ∉ h.cancelLog id) ∧
      ∀ i, .cancelled i ∈ h.cancelLog id → i = id := by
  cases hp : h.pipeline? id with
  | none => simp [cancelLog, hp, callsIn]
  | some p =>
    by_cases hopen : p.isOpen = true
    · simp only [cancelLog, hp, if_pos hopen]
      have hresume := resumeAll_moves false p.cancel.2.2
        (⟨h.setPipeline id p.cancel.1, (), p.cancel.2.1, []⟩ : Reply π ρ α Unit)
      have hsettle := settle_moves (resumeAll false p.cancel.2.2
        (⟨h.setPipeline id p.cancel.1, (), p.cancel.2.1, []⟩ : Reply π ρ α Unit))
      have hans : callsIn (.cancelled id :: answers id p.cancel.2.1 : List (Event π ρ α)) = [] :=
        callsIn_answers id _
      refine ⟨?_, fun i hmem => ?_, fun i hmem => ?_⟩
      · rw [callsIn_append, callsIn_append, hans, hresume.callsIn, hsettle.callsIn]
        rfl
      · rcases List.mem_append.mp hmem with hmem | hmem
        · rcases List.mem_append.mp hmem with hmem | hmem
          · simp [answers] at hmem
          · exact hresume.not_cutIn i (Or.inr hmem)
        · exact hsettle.not_cutIn i (Or.inr hmem)
      · rcases List.mem_append.mp hmem with hmem | hmem
        · rcases List.mem_append.mp hmem with hmem | hmem
          · simpa [answers] using hmem
          · exact absurd (Or.inl hmem) (hresume.not_cutIn i)
        · exact absurd (Or.inl hmem) (hsettle.not_cutIn i)
    · simp [cancelLog, hp, if_neg hopen, callsIn]

/-- What is noted of a step comes from moves, unless the step publishes or ends a subscription. -/
theorem Step.exists_moves (h : Hub Nat Nat α) (call : Nat) (s : Step α) :
    (∃ x y : Scene Nat Nat α, Moves x (s.log h call) y) ∨
      (∃ order vs, (s = .burst order vs ∨ ∃ v, s = .publish order v ∧ vs = [v]) ∧
        s.log h call = h.publishAllLog call order vs) ∨
      ∃ id, s = .cancel id ∨ s = .abandon id := by
  have hy := s.yields h call
  generalize s.act h call = reply, s.log h call = log at hy ⊢
  cases hy with
  | gone _ | busy _ | subscribe n _ => exact Or.inl ⟨_, _, .refl ⟨h, []⟩⟩
  | publish order v _ => exact Or.inr (Or.inl ⟨order, [v], Or.inr ⟨v, rfl, rfl⟩, rfl⟩)
  | burst order vs _ => exact Or.inr (Or.inl ⟨order, vs, Or.inl rfl, rfl⟩)
  | receive id _ | tryReceive id _ => exact Or.inl ⟨_, _, h.tryReceive_moves id⟩
  | drain id _ => exact Or.inl ⟨_, _, h.drain_moves id⟩
  | cancel id => exact Or.inr (Or.inr ⟨id, Or.inl rfl⟩)
  | abandon id _ => exact Or.inr (Or.inr ⟨id, Or.inr rfl⟩)
  | close _ => exact Or.inl ⟨_, _, h.close_moves⟩
  | disown _ =>
    exact Or.inl ⟨_, _, settle_moves (⟨{ h with owned := false }, (), [], []⟩ :
      Reply Nat Nat α Unit)⟩

/-- Only publishes are called, each under the number of its step. -/
theorem Step.callsIn_log (h : Hub Nat Nat α) (call : Nat) (s : Step α) :
    callsIn (s.log h call) = [] ∨
      callsIn (s.log h call) = [call] ∧
        ((∃ order v, s = .publish order v) ∨ ∃ order vs, s = .burst order vs) := by
  rcases s.exists_moves h call with ⟨_, _, hmoves⟩ | ⟨order, vs, hs, hlog⟩ | ⟨id, rfl | rfl⟩
  · exact Or.inl hmoves.callsIn
  · refine Or.inr ⟨?_, ?_⟩
    · rw [hlog]
      exact callsIn_publishAllLog h call order vs
    · rcases hs with rfl | ⟨v, rfl, -⟩
      · exact Or.inr ⟨order, vs, rfl⟩
      · exact Or.inl ⟨order, v, rfl⟩
  · exact Or.inl (cancelLog_spec h id).1
  · refine Or.inl ?_
    simp only [Step.log]
    split
    · rfl
    · rw [abandonLog, callsIn_append, (cancelLog_spec h id).1]
      rfl

/-- A subscription is cut off by a step on its own handle only. -/
theorem Step.cutIn_log {h : Hub Nat Nat α} {call : Nat} {s : Step α} {id : SubscriptionId}
    (hcut : CutIn id (s.log h call)) :
    (s = .cancel id ∧ .abandoned id ∉ s.log h call) ∨ s = .abandon id := by
  rcases s.exists_moves h call with ⟨_, _, hmoves⟩ | ⟨order, vs, -, hlog⟩ | ⟨i, rfl | rfl⟩
  · exact absurd hcut (hmoves.not_cutIn id)
  · rw [hlog] at hcut
    exact absurd hcut (not_cutIn_publishAllLog h call order vs id)
  · obtain ⟨-, habandoned, hcancelled⟩ := cancelLog_spec h i
    rcases hcut with hcut | hcut
    · rw [hcancelled id hcut]
      exact Or.inl ⟨rfl, habandoned i⟩
    · exact absurd hcut (habandoned id)
  · obtain ⟨-, habandoned, hcancelled⟩ := cancelLog_spec h i
    simp only [Step.log] at hcut
    split at hcut
    · simp [CutIn] at hcut
    · rw [abandonLog, cutIn_append] at hcut
      rcases hcut with (hcut | hcut) | hcut
      · exact Or.inr (by rw [hcancelled id hcut])
      · exact absurd hcut (habandoned id)
      · simp only [CutIn, List.mem_singleton, reduceCtorEq, Event.abandoned.injEq, false_or] at hcut
        exact Or.inr (by rw [hcut])

/-! ## Runs -/

/-- A run so far: the hub, the number of steps, and all that was noted. -/
structure Run (α : Type) where
  hub : Hub Nat Nat α
  calls : Nat
  log : List (Event Nat Nat α)

namespace Run

/-- One more step. -/
def next (r : Run α) (s : Step α) : Run α :=
  ⟨(s.act r.hub r.calls).hub, r.calls + 1, r.log ++ s.log r.hub r.calls⟩

/-- More steps. -/
def extend (r : Run α) (steps : List (Step α)) : Run α := steps.foldl next r

end Run

/-- The run of some steps on a new hub. -/
def run (label : String) (policy : Policy) (steps : List (Step α)) : Run α :=
  Run.extend ⟨.new label policy, 0, []⟩ steps

theorem run_append (label : String) (policy : Policy) (before after : List (Step α)) :
    run label policy (before ++ after) = (run label policy before).extend after :=
  List.foldl_append ..

theorem Run.extend_append (r : Run α) (before after : List (Step α)) :
    r.extend (before ++ after) = (r.extend before).extend after :=
  List.foldl_append ..

@[simp] theorem Run.extend_cons (r : Run α) (s : Step α) (steps : List (Step α)) :
    r.extend (s :: steps) = (r.next s).extend steps := rfl

@[simp] theorem Run.extend_nil (r : Run α) : r.extend [] = r := rfl

@[simp] theorem Run.extend_calls (r : Run α) (steps : List (Step α)) :
    (r.extend steps).calls = r.calls + steps.length := by
  induction steps generalizing r with
  | nil => rfl
  | cons s rest ih =>
    rw [Run.extend_cons, ih, List.length_cons]
    simp only [Run.next]
    omega

/-- **More steps are a sequence of turns**, in which only new calls are made. -/
theorem Run.extend_turns {r : Run α} (hg : r.hub.Good) (steps : List (Step α)) :
    (r.extend steps).hub.Good ∧ ∃ log, (r.extend steps).log = r.log ++ log ∧
      Turns ⟨r.hub, []⟩ log ⟨(r.extend steps).hub, []⟩ ∧
      (∀ c ∈ callsIn log, r.calls ≤ c ∧ c < (r.extend steps).calls) ∧ (callsIn log).Nodup ∧
      ∀ id, (CutIn id log → .cancel id ∈ steps ∨ .abandon id ∈ steps) ∧
        (.abandoned id ∈ log → .abandon id ∈ steps) := by
  induction steps generalizing r with
  | nil =>
    refine ⟨hg, [], by simp, .refl _, by simp [callsIn], by simp [callsIn], fun id => ?_⟩
    simp [CutIn]
  | cons s rest ih =>
    obtain ⟨hgood, log, hlog, hturns, hcalls, hnodup, hcut⟩ := ih (r := r.next s) (s.good hg)
    have hown : ∀ c ∈ callsIn (s.log r.hub r.calls), c = r.calls := by
      intro c hc
      rcases s.callsIn_log r.hub r.calls with h | ⟨h, -⟩
      · rw [h] at hc
        cases hc
      · rw [h] at hc
        exact List.mem_singleton.mp hc
    refine ⟨hgood, s.log r.hub r.calls ++ log, ?_, (s.turns hg).trans hturns, fun c hc => ?_, ?_,
      fun id => ⟨fun h => ?_, fun h => ?_⟩⟩
    · rw [Run.extend_cons, hlog, ← List.append_assoc]
      rfl
    · rw [callsIn_append] at hc
      simp only [Run.extend_cons, Run.extend_calls, Run.next] at hcalls ⊢
      rcases List.mem_append.mp hc with hc | hc
      · have := hown c hc
        omega
      · have := hcalls c hc
        omega
    · rw [callsIn_append]
      refine List.nodup_append.mpr ⟨?_, hnodup, fun c hc d hd => ?_⟩
      · rcases s.callsIn_log r.hub r.calls with h | ⟨h, -⟩
        · rw [h]
          exact List.nodup_nil
        · rw [h]
          exact List.nodup_singleton _
      · -- The calls of later steps have larger numbers.
        have h₁ := hown c hc
        have h₂ := (hcalls d hd).1
        simp only [Run.next] at h₂
        omega
    · rcases cutIn_append.mp h with h | h
      · rcases Step.cutIn_log h with ⟨rfl, -⟩ | rfl
        · exact Or.inl (List.mem_cons_self ..)
        · exact Or.inr (List.mem_cons_self ..)
      · exact ((hcut id).1 h).imp (List.mem_cons_of_mem _) (List.mem_cons_of_mem _)
    · rcases List.mem_append.mp h with h | h
      · rcases Step.cutIn_log (Or.inr h) with ⟨rfl, hnone⟩ | rfl
        · exact absurd h hnone
        · exact List.mem_cons_self ..
      · exact List.mem_cons_of_mem _ ((hcut id).2 h)

end Switchboard.Hub
