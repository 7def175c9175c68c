import Switchboard.Proofs.Hub.Calm

/-!
# Lossy hubs

On a lossy hub no publish ever waits, so nothing that one subscriber does or fails to do reaches
another. What a step comes to at a subscription depends on its own pipeline only, and on the part
of the step that concerns it, its *cue*: that a value was published, that its holder receives, or
that the hub shuts.

**Main statement** (`Step.felt`). Every step on a lossy hub, but for a cancel, an abandon or a
burst, does to the pipeline of a subscription what its cue says (`Felt`).
-/

namespace Switchboard.Hub

variable {π ρ α β : Type}

/-! ## Lossy hubs between two steps -/

/-- A lossy hub between two steps. -/
structure Lossy (h : Hub π ρ α) : Prop extends Good h where
  lossy : h.policy = .lossy

theorem Turn.policy {s t : Scene π ρ α} {log : List (Event π ρ α)} (h : Turn s log t) :
    t.hub.policy = s.hub.policy := by
  cases h with
  | move h => cases h <;> rfl
  | _ => rfl

theorem Turns.policy {s t : Scene π ρ α} {log : List (Event π ρ α)} (h : Turns s log t) :
    t.hub.policy = s.hub.policy := by
  induction h with
  | refl _ => rfl
  | head hm _ ih => exact ih.trans hm.policy

theorem Step.lossy {h : Hub Nat Nat α} {call : Nat} (hl : h.Lossy) (s : Step α) :
    (s.act h call).hub.Lossy :=
  ⟨s.good hl.toGood, (s.turns hl.toGood).policy.trans hl.lossy⟩

section lossy

variable {h : Hub π ρ α} {id S : SubscriptionId} {p : Pipeline (Publication π α) ρ α}

theorem Sound.parkedPublications_eq (hs : h.Sound) (hpol : h.policy = .lossy) :
    h.parkedPublications = [] := by
  apply parkedPublications_of_waiting
  intro e he
  exact (hs.fits e he).lossy hpol

theorem Lossy.calm (hl : h.Lossy) : h.Calm :=
  ⟨hl.toGood, hl.sound.parkedPublications_eq hl.lossy⟩

theorem Lossy.closed_of_disowned (hl : h.Lossy) (ho : h.owned = false) : h.closed = true := by
  rcases hl.anchored with ha | ha | ha
  · rw [ho] at ha
    cases ha
  · exact ha
  · exact absurd hl.calm.idle ha

end lossy

/-! ## What a subscription feels -/

/-- What concerns a subscription in the steps made on its hub. -/
inductive Cue (α : Type) where
  | publish (value : α)
  | receive
  | tryReceive
  | drain
  /-- The hub shuts, or its owner lets go of it. -/
  | shut
deriving DecidableEq, Repr

/-- Whether a cue is a receive. -/
def Cue.reads : Cue α → Bool
  | receive | tryReceive | drain => true
  | publish _ | shut => false

/-- What concerns `S` in a step. -/
def Step.cue (S : SubscriptionId) : Step α → Option (Cue α)
  | publish _ v => some (.publish v)
  | receive id => if id = S then some .receive else none
  | tryReceive id => if id = S then some .tryReceive else none
  | drain id => if id = S then some .drain else none
  | close | disown => some .shut
  | subscribe _ | burst _ _ | cancel _ | abandon _ => none

/-- A value comes to the buffer of a subscription, which takes it or is full or shut. -/
inductive Offered (S : SubscriptionId) (caller : π) (v : α) (p : Pipeline (Publication π α) ρ α) :
    List (Event π ρ α) → Pipeline (Publication π α) ρ α → Prop
  | taken {p' : Pipeline (Publication π α) ρ α} {received : List (ρ × Option α)} :
      p.isOpen = true → p.buffer.hasRoom = true → p.store v = (p', received) →
      Offered S caller v p (.stored S caller v :: answers S received) p'
  | refused : (p.isOpen = true → p.buffer.hasRoom = false) → Offered S caller v p [] p

/-- What a cue does to a pipeline, what the holder gets, and what is noted. -/
inductive Felt (S : SubscriptionId) (call : Nat) :
    Option (Cue α) → Pipeline (Publication Nat α) Nat α → Option (Answer α) →
      List (Event Nat Nat α) → Pipeline (Publication Nat α) Nat α → Prop
  | rest (p : Pipeline (Publication Nat α) Nat α) : Felt S call none p none [] p
  | publish {p p' : Pipeline (Publication Nat α) Nat α} {v : α} {log : List (Event Nat Nat α)} :
      Offered S call v p log p' → Felt S call (some (.publish v)) p none log p'
  | busy {p : Pipeline (Publication Nat α) Nat α} {c : Cue α} :
      c.reads = true → p.receiver ≠ none → Felt S call (some c) p (some .busy) [] p
  | receive {p p' : Pipeline (Publication Nat α) Nat α} {v : α} {rest : List α} :
      p.receiver = none → p.unread = v :: rest → p.tryReceive = (p', .value v, none) →
      Felt S call (some .receive) p (some (.received (.returned (some v)))) [.received S v] p'
  | finish {p : Pipeline (Publication Nat α) Nat α} :
      p.receiver = none → p.unread = [] → p.buffer.closed = true →
      Felt S call (some .receive) p (some (.received (.returned none))) [] p
  | await {p : Pipeline (Publication Nat α) Nat α} :
      p.receiver = none → p.unread = [] → p.buffer.closed = false →
      Felt S call (some .receive) p (some (.received .parked)) [] { p with receiver := some call }
  | glance {p p' : Pipeline (Publication Nat α) Nat α} {v : α} {rest : List α} :
      p.receiver = none → p.unread = v :: rest → p.tryReceive = (p', .value v, none) →
      Felt S call (some .tryReceive) p (some (.tried (.value v))) [.received S v] p'
  | glanceNone {p : Pipeline (Publication Nat α) Nat α} :
      p.receiver = none → p.unread = [] →
      Felt S call (some .tryReceive) p
        (some (.tried (if p.buffer.closed then .ended else .empty))) [] p
  | drain {p p' : Pipeline (Publication Nat α) Nat α} :
      p.receiver = none → p'.unread = [] → p'.shell = p.shell →
      Felt S call (some .drain) p (some (.drained ⟨p.unread, p.buffer.closed⟩))
        (p.unread.map (.received S)) p'
  | shut (p : Pipeline (Publication Nat α) Nat α) :
      Felt S call (some .shut) p none (answers S (p.receiver.toList.map (·, none))) p.retired

section publishing

variable {h : Hub π ρ α} {S : SubscriptionId} {p : Pipeline (Publication π α) ρ α}

theorem offer_lossy (hs : h.Sound) (hpol : h.policy = .lossy) (hp : h.pipeline? S = some p)
    (id : SubscriptionId) (q : Publication π α) :
    (h.offer id q).2.1 ≠ .parked ∧ (h.offer id q).1.Sound ∧ (h.offer id q).1.policy = .lossy ∧
      (id ≠ S → Spares S h (h.offerLog id q) (h.offer id q).1) ∧
      (id = S → ∃ p', (h.offer id q).1.pipeline? S = some p' ∧
        Offered S q.caller q.value p (logAt S (h.offerLog id q)) p') := by
  by_cases hshut : ∀ p, h.pipeline? id = some p → p.isOpen = false
  · have hlog : h.offerLog id q = [] := by rw [offerLog, offer_of_shut q hshut]
    rw [offer_of_shut q hshut, hlog]
    refine ⟨by simp, hs, hpol, fun _ => .refl h, fun hid => ⟨p, hp, .refused fun hopen => ?_⟩⟩
    rw [hshut p (hid ▸ hp)] at hopen
    cases hopen
  · push Not at hshut
    obtain ⟨p₁, hp₁, hopen⟩ := hshut
    replace hopen : p₁.isOpen = true := by simpa using hopen
    have hsame : id = S → p₁ = p := by
      rintro rfl
      exact Option.some.inj (hp₁.symm.trans hp)
    by_cases hroom : p₁.buffer.hasRoom = true
    · obtain ⟨p', received, hstore⟩ : ∃ p' received, p₁.store q.value = (p', received) :=
        ⟨_, _, rfl⟩
      have hoffer := offer_of_room hp₁ hopen hroom hstore
      have hlog : h.offerLog id q = .stored id q.caller q.value :: answers id received := by
        rw [offerLog, hoffer]
      have hat : logAt S (h.offerLog id q) =
          if id = S then h.offerLog id q else [] := by
        rw [hlog]
        exact logAt_cons_answers S rfl received
      rw [hoffer]
      refine ⟨by simp, hs.setPipeline hp₁ ((hs.fits_of hp₁).store hroom hstore), hpol,
        fun hne => spares_setPipeline hp₁ hne (hat.trans (if_neg hne)), fun hid => ⟨p', ?_, ?_⟩⟩
      · exact (pipeline?_setPipeline hp₁ p' S).trans (if_pos hid.symm)
      · rw [hat, if_pos hid, hlog, hid]
        exact hsame hid ▸ .taken hopen hroom hstore
    · replace hroom : p₁.buffer.hasRoom = false := by simpa using hroom
      have hoffer := offer_of_full_lossy q hp₁ hopen hroom hpol
      have hlog : h.offerLog id q = [] := by rw [offerLog, hoffer]
      rw [hoffer, hlog]
      exact ⟨by simp, ⟨hs.nodup, hs.named, hs.fits⟩, hpol, fun _ => ⟨rfl, rfl⟩,
        fun hid => ⟨p, hp, .refused fun _ => hsame hid ▸ hroom⟩⟩

/-- A target that does not park the publish is followed by those ahead. -/
theorem visit_cons {q : Publication π α} {id : SubscriptionId} {ahead : List SubscriptionId}
    {r : Progress π ρ α}
    (ho : (r.hub.offer id { q with ahead, accepted := r.accepted }).2.1 ≠ .parked)
    (hr : r.parked = false) :
    ∃ r', r'.hub = (r.hub.offer id { q with ahead, accepted := r.accepted }).1 ∧
      r'.parked = false ∧ visit q (id :: ahead) r = visit q ahead r' ∧
      visitLog q (id :: ahead) r =
        r.hub.offerLog id { q with ahead, accepted := r.accepted } ++ visitLog q ahead r' := by
  simp only [visit, visitLog, offerLog]
  rcases hoffer : r.hub.offer id { q with ahead, accepted := r.accepted } with
    ⟨hub, _ | _ | _, received⟩
  · exact ⟨⟨hub, r.accepted + 1, false, r.received ++ received⟩, rfl, rfl, rfl, rfl⟩
  · exact ⟨{ r with hub }, rfl, hr, rfl, rfl⟩
  · rw [hoffer] at ho
    exact absurd rfl ho

/-- **A publish on a lossy hub** comes to each of its targets once and waits nowhere. -/
theorem visit_lossy (q : Publication π α) {ids : List SubscriptionId} (hn : ids.Nodup)
    {r : Progress π ρ α} (hs : r.hub.Sound) (hpol : r.hub.policy = .lossy)
    (hr : r.parked = false) (hp : r.hub.pipeline? S = some p) :
    (visit q ids r).parked = false ∧
      (S ∉ ids → Spares S r.hub (visitLog q ids r) (visit q ids r).hub) ∧
      (S ∈ ids → ∃ p', (visit q ids r).hub.pipeline? S = some p' ∧
        Offered S q.caller q.value p (logAt S (visitLog q ids r)) p') := by
  induction ids generalizing r p with
  | nil => exact ⟨hr, fun _ => .refl _, fun hS => absurd hS List.not_mem_nil⟩
  | cons id ahead ih =>
    obtain ⟨hid, hn'⟩ := List.nodup_cons.mp hn
    obtain ⟨ho, hs', hpol', hspare, hoffered⟩ :=
      offer_lossy hs hpol hp id { q with ahead, accepted := r.accepted }
    obtain ⟨r', hhub, hr', hvisit, hlog⟩ := visit_cons ho hr
    rw [← hhub] at hs' hpol' hspare hoffered
    rw [hvisit, hlog]
    by_cases hS : id = S
    · obtain ⟨p', hp', hoff⟩ := hoffered hS
      obtain ⟨hpark, hrest, -⟩ := ih hn' hs' hpol' hr' hp'
      have hspared := hrest (hS ▸ hid)
      refine ⟨hpark, fun hne => absurd (hS ▸ List.mem_cons_self ..) hne,
        fun _ => ⟨p', hspared.pipeline.trans hp', ?_⟩⟩
      rw [logAt_append, hspared.log, List.append_nil]
      exact hoff
    · have hspared := hspare hS
      obtain ⟨hpark, hrest, hmem⟩ := ih hn' hs' hpol' hr' (hspared.pipeline.trans hp)
      refine ⟨hpark, fun hne => hspared.trans (hrest fun h => hne (List.mem_cons_of_mem _ h)),
        fun h => ?_⟩
      obtain ⟨p', hp', hoff⟩ := hmem ((List.mem_cons.mp h).resolve_left (Ne.symm hS))
      refine ⟨p', hp', ?_⟩
      rw [logAt_append, hspared.log, List.nil_append]
      exact hoff

/-- A publish offers its value once to every subscription that is registered. -/
theorem Lossy.publishAll (hl : h.Lossy) (hp : h.pipeline? S = some p) (caller : π)
    (order : List SubscriptionId) (v : α) :
    ∃ p', (h.publishAll caller order [v]).hub.pipeline? S = some p' ∧
      Offered S caller v p (logAt S (h.publishAllLog caller order [v])) p' := by
  have hfits := hl.sound.fits_of hp
  by_cases hc : h.closed = true
  · have hnone := publishEach_of_closed (r := ⟨h, 0, false, []⟩) caller order [v] hc
    refine ⟨p, ?_, ?_⟩
    · rw [Hub.publishAll, hnone.1]
      exact hp
    · rw [publishAllLog, hnone.2]
      refine .refused fun hopen => ?_
      rw [Pipeline.isOpen, hfits.shut hc] at hopen
      cases hopen
  · set hub : Hub π ρ α := { h with published := h.published + 1 } with hhub
    have hs : hub.Sound := ⟨hl.sound.nodup, hl.sound.named, hl.sound.fits⟩
    obtain ⟨hpark, hspare, hoffered⟩ :=
      visit_lossy (S := S) ⟨caller, order, v, [], 0, []⟩ (nodup_targets hs order)
        (r := ⟨hub, 0, false, []⟩) hs hl.lossy rfl hp
    have hpublish : (h.publishAll caller order [v]).hub =
        (visit ⟨caller, order, v, [], 0, []⟩ (hub.targets order) ⟨hub, 0, false, []⟩).hub := by
      simp only [Hub.publishAll, publishEach, if_neg hc, ← hhub, hpark, Bool.false_eq_true,
        if_false]
    have hlog : logAt S (h.publishAllLog caller order [v]) =
        logAt S (visitLog ⟨caller, order, v, [], 0, []⟩ (hub.targets order)
          ⟨hub, 0, false, []⟩) := by
      simp only [publishAllLog, publishEachLog, if_neg hc, ← hhub, hpark]
      simp [logAt, Event.isAt]
    rw [hpublish, hlog]
    by_cases hS : S ∈ hub.targets order
    · exact hoffered hS
    · have hspared := hspare hS
      refine ⟨p, hspared.pipeline.trans hp, ?_⟩
      rw [hspared.log]
      refine .refused fun hopen => absurd (mem_targets.mpr ?_) hS
      exact hs.mem_registered.mpr ⟨p, hp, hopen⟩

end publishing

/-! ## What a step does to one subscription -/

section steps

variable {h : Hub Nat Nat α} {call : Nat} {S : SubscriptionId}
  {p : Pipeline (Publication Nat α) Nat α}

/-- What the holder of `S` gets from a step. -/
def Step.answerTo (S : SubscriptionId) (h : Hub Nat Nat α) (call : Nat) (s : Step α) :
    Option (Answer α) :=
  if (s.cue S).any Cue.reads then some (s.act h call).result else none

theorem Lossy.felt_of_closed (hl : h.Lossy) (hp : h.pipeline? S = some p) (hc : h.closed = true) :
    (∀ v, Felt S call (some (.publish v)) p none [] p) ∧ Felt S call (some .shut) p none [] p := by
  have hfits := hl.sound.fits_of hp
  have hshut := hfits.shut hc
  refine ⟨fun v => .publish (.refused fun hopen => ?_), ?_⟩
  · rw [Pipeline.isOpen, hshut] at hopen
    cases hopen
  · have hfelt : Felt S call (some .shut) p none _ _ := .shut p
    rwa [hfits.settled.retired_of_closed hshut, (hfits.settled.idle_of_closed hshut).2] at hfelt

theorem logAt_received (S : SubscriptionId) (v : α) :
    logAt S [.received S v] = ([.received S v] : List (Event Nat Nat α)) := by
  simp [logAt, Event.isAt]

theorem Lossy.felt_receive (hl : h.Lossy) (hp : h.pipeline? S = some p)
    (hr : p.receiver = none) :
    ∃ p', (h.receive S call).hub.pipeline? S = some p' ∧
      Felt S call (some .receive) p (some (.received (h.receive S call).result))
        (logAt S (h.tryReceiveLog S)) p' := by
  cases hu : p.unread with
  | cons v rest =>
    obtain ⟨p', hread, -, -, heq, hlog, hp'⟩ := hl.calm.read_of_cons hp hu
    have hreceive : h.receive S call = ⟨h.setPipeline S p', .returned (some v), [], []⟩ := by
      simp only [Hub.receive, heq]
    rw [hreceive, hlog]
    refine ⟨p', hp', ?_⟩
    rw [logAt_received]
    exact .receive hr hu hread
  | nil =>
    have hread := tryReceive_of_nil hl.sound hl.anchored hp hu
    have hlog := hl.calm.tryReceiveLog_of_nil hp hu
    rw [hlog]
    cases hc : p.buffer.closed with
    | true =>
      rw [hc] at hread
      have hreceive : h.receive S call = ⟨h, .returned none, [], []⟩ := by
        simp only [Hub.receive, hread, if_true]
      rw [hreceive]
      exact ⟨p, hp, .finish hr hu hc⟩
    | false =>
      rw [hc] at hread
      have hreceive : h.receive S call =
          ⟨h.setPipeline S { p with receiver := some call }, .parked, [], []⟩ := by
        simp only [Hub.receive, hread, hp, Bool.false_eq_true, if_false]
      rw [hreceive]
      exact ⟨_, (pipeline?_setPipeline hp _ S).trans (if_pos rfl), .await hr hu hc⟩

theorem Lossy.felt_tryReceive (hl : h.Lossy) (hp : h.pipeline? S = some p)
    (hr : p.receiver = none) :
    ∃ p', (h.tryReceive S).hub.pipeline? S = some p' ∧
      Felt S call (some .tryReceive) p (some (.tried (h.tryReceive S).result))
        (logAt S (h.tryReceiveLog S)) p' := by
  cases hu : p.unread with
  | cons v rest =>
    obtain ⟨p', hread, -, -, heq, hlog, hp'⟩ := hl.calm.read_of_cons hp hu
    rw [heq, hlog]
    refine ⟨p', hp', ?_⟩
    rw [logAt_received]
    exact .glance hr hu hread
  | nil =>
    have hread := tryReceive_of_nil hl.sound hl.anchored hp hu
    have hlog := hl.calm.tryReceiveLog_of_nil hp hu
    rw [hread, hlog]
    exact ⟨p, hp, .glanceNone hr hu⟩

theorem Lossy.felt_drain (hl : h.Lossy) (hp : h.pipeline? S = some p)
    (hr : p.receiver = none) :
    ∃ p', (h.drain S).hub.pipeline? S = some p' ∧
      Felt S call (some .drain) p (some (.drained (h.drain S).result)) (logAt S (h.drainLog S))
        p' := by
  obtain ⟨p', hp', hresult, hempty, hshell, hlog⟩ := Calm.drainUpTo_at (h.backlog S + 1) []
    (r := ⟨h, (), [], []⟩) hl.calm hp (by rw [hl.calm.backlog_eq hp]; exact Nat.lt_succ_self _)
  refine ⟨p', hp', ?_⟩
  have hat : logAt S (h.drainLog S) = p.unread.map (.received S) := by
    rw [drainLog, hlog, logAt, List.filter_eq_self]
    intro e he
    obtain ⟨v, -, rfl⟩ := List.mem_map.mp he
    simp [Event.isAt]
  rw [hat, drain, hresult]
  exact .drain hr hempty hshell

theorem Spares.felt {h' : Hub Nat Nat α} {log : List (Event Nat Nat α)} (hs : Spares S h log h')
    (hp : h.pipeline? S = some p) :
    ∃ p', h'.pipeline? S = some p' ∧ Felt S call none p none (logAt S log) p' := by
  rw [hs.log]
  exact ⟨p, hs.pipeline.trans hp, .rest p⟩

/-- Reading from a handle is felt by its own subscription only, and not at all while a receive waits
on the handle. -/
theorem felt_unlessBusy (hp : h.pipeline? S = some p) {id : SubscriptionId} {c : Cue α}
    (hreads : c.reads = true) {reply : Reply Nat Nat α (Answer α)} {log : List (Event Nat Nat α)}
    (hhere : id = S → p.receiver = none → ∃ p', reply.hub.pipeline? S = some p' ∧
      Felt S call (some c) p (some reply.result) (logAt S log) p')
    (hthere : id ≠ S → Spares S h log reply.hub) :
    ∃ p', (h.unlessBusy id reply).hub.pipeline? S = some p' ∧
      Felt S call (if id = S then some c else none) p
        (if (if id = S then some c else none).any Cue.reads then
          some (h.unlessBusy id reply).result else none)
        (logAt S (if h.isWaiting id then [] else log)) p' := by
  by_cases hid : id = S
  · have hwaits : h.isWaiting id = p.receiver.isSome := by rw [hid, isWaiting_eq hp]
    simp only [hid, if_true, Option.any_some, hreads]
    rw [← hid, unlessBusy, hwaits, hid]
    cases hr : p.receiver with
    | none => exact hhere hid hr
    | some c' => exact ⟨p, hp, .busy hreads (by rw [hr]; exact Option.some_ne_none c')⟩
  · simp only [if_neg hid, unlessBusy]
    split
    · exact (Spares.refl h).felt hp
    · exact (hthere hid).felt hp

/-- **What a step does to a subscription** depends on its cue and its pipeline only. -/
theorem Step.felt (call : Nat) (hl : h.Lossy) (hp : h.pipeline? S = some p) {s : Step α}
    (hcancel : s ≠ .cancel S) (habandon : s ≠ .abandon S) (hburst : ∀ order vs, s ≠ .burst order vs) :
    ∃ p', (s.act h call).hub.pipeline? S = some p' ∧
      Felt S call (s.cue S) p (s.answerTo S h call) (logAt S (s.log h call)) p' := by
  cases s with
  | subscribe n =>
    simp only [Step.act, Step.log, byOwner]
    split
    · exact (spares_subscribe hp n).felt hp
    · exact (Spares.refl h).felt hp
  | publish order v =>
    simp only [Step.act, Step.log, byOwner]
    split
    · obtain ⟨p', hp', hoff⟩ := hl.publishAll hp call order v
      exact ⟨p', hp', .publish hoff⟩
    · rename_i ho
      exact ⟨p, hp, (hl.felt_of_closed hp (hl.closed_of_disowned (by simpa using ho))).1 v⟩
  | burst order vs => exact absurd rfl (hburst order vs)
  | receive id =>
    exact felt_unlessBusy hp rfl (fun hid hr => hid ▸ hl.felt_receive (hid ▸ hp) hr)
      fun hid => hl.calm.spares_receive hid call
  | tryReceive id =>
    exact felt_unlessBusy hp rfl (fun hid hr => hid ▸ hl.felt_tryReceive (hid ▸ hp) hr)
      fun hid => hl.calm.spares_tryReceive hid
  | drain id =>
    exact felt_unlessBusy hp rfl (fun hid hr => hid ▸ hl.felt_drain (hid ▸ hp) hr)
      fun hid => Calm.spares_drainUpTo hid _ [] (r := ⟨h, (), [], []⟩) hl.calm
  | cancel id =>
    -- Whoever else leaves spares `S`, as no publish waits on a lossy hub.
    have hid : id ≠ S := fun heq => hcancel (by rw [heq])
    exact (hl.calm.spares_cancel hid).felt hp
  | abandon id =>
    have hid : id ≠ S := fun heq => habandon (by rw [heq])
    simp only [Step.act, Step.log, unlessBusy]
    split
    · exact (Spares.refl h).felt hp
    · exact (hl.calm.spares_abandon hid).felt hp
  | close =>
    simp only [Step.act, Step.log, byOwner]
    split
    · obtain ⟨hp', hlog⟩ := close_at hl.sound hl.calm.idle hp
      exact ⟨p.retired, hp', hlog ▸ .shut p⟩
    · rename_i ho
      exact ⟨p, hp, (hl.felt_of_closed hp (hl.closed_of_disowned (by simpa using ho))).2⟩
  | disown =>
    simp only [Step.act, Step.log, byOwner]
    split
    · obtain ⟨hp', hlog⟩ := hl.calm.disown_at hp
      exact ⟨p.retired, hp', hlog ▸ .shut p⟩
    · rename_i ho
      exact ⟨p, hp, (hl.felt_of_closed hp (hl.closed_of_disowned (by simpa using ho))).2⟩

end steps

end Switchboard.Hub
