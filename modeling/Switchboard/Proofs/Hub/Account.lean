import Mathlib.Data.List.Basic
import Switchboard.Proofs.Hub.Sound

/-!
# The account of one subscription

What the turns of a hub come to for a single subscription. A turn leaves its pipeline alone or does
one of a few things to it (`Touch`), so what each of those keeps, every turn keeps.

**The account.** Nothing is lost, doubled or reordered between the buffer's entrance and the
holder: what was unread before, followed by what the buffer took, is what the holder received,
followed by what is unread now (`Carries`). Cancelling cuts off the buffer, at the end of what is
unread.

**Main statement** (`Turns.account`). Over any stretch of a hub's life: what the holder of a
subscription received, followed by what is unread, is a prefix of what its buffer took, and all of
it unless the subscription was cancelled or abandoned.
-/

namespace Switchboard.Hub

variable {π ρ α : Type}

/-! ## The log of one subscription -/

/-- Whether an event concerns a subscription. -/
def Event.isAt (id : SubscriptionId) : Event π ρ α → Bool
  | .stored i _ _ | .received i _ | .answered i _ _ | .cancelled i | .abandoned i => i == id
  | .called _ | .returned _ _ => false

/-- What a log says about a subscription. -/
def logAt (id : SubscriptionId) (log : List (Event π ρ α)) : List (Event π ρ α) :=
  log.filter (·.isAt id)

section logAt

variable (id : SubscriptionId) (log : List (Event π ρ α))

theorem storedIn_logAt : storedIn id (logAt id log) = storedIn id log := by
  rw [storedIn, logAt, List.filterMap_filter]
  refine List.filterMap_congr fun e _ => ?_
  cases e <;> simp [Event.isAt]

theorem takenBy_logAt : takenBy id (logAt id log) = takenBy id log := by
  rw [takenBy, logAt, List.filterMap_filter]
  refine List.filterMap_congr fun e _ => ?_
  cases e with
  | answered i caller v => by_cases h : i = id <;> simp [Event.isAt, h]
  | _ => simp [Event.isAt]

theorem mem_logAt {id : SubscriptionId} {log : List (Event π ρ α)} {e : Event π ρ α} :
    e ∈ logAt id log ↔ e ∈ log ∧ e.isAt id = true :=
  List.mem_filter

theorem logAt_nil : logAt id ([] : List (Event π ρ α)) = [] := rfl

theorem logAt_answers (i : SubscriptionId) (received : List (ρ × Option α)) :
    logAt id (answers i received : List (Event π ρ α)) =
      if i = id then answers i received else [] := by
  rw [logAt, answers, List.filter_map]
  by_cases h : i = id
  · simp [Event.isAt, h, Function.comp_def]
  · simp [Event.isAt, h, Function.comp_def]

theorem logAt_cons_answers {i : SubscriptionId} {e : Event π ρ α} (he : e.isAt id = (i == id))
    (received : List (ρ × Option α)) :
    logAt id (e :: answers i received) = if i = id then e :: answers i received else [] := by
  have hans : logAt id (answers i received : List (Event π ρ α)) = _ :=
    logAt_answers id i received
  simp only [logAt] at hans ⊢
  rw [List.filter_cons, hans, he]
  by_cases h : i = id
  · simp [h]
  · simp [h]

theorem logAt_readLog (i : SubscriptionId) (reception : Reception α)
    (publication : Option (Publication π α)) :
    logAt id (readLog i reception publication : List (Event π ρ α)) =
      if i = id then readLog i reception publication else [] := by
  by_cases h : i = id
  · cases reception <;> cases publication <;> simp [logAt, readLog, Event.isAt, h]
  · cases reception <;> cases publication <;> simp [logAt, readLog, Event.isAt, h]

end logAt

/-! ## What a turn does to one pipeline -/

/-- What may happen to the pipeline of one subscription, with what is noted of it there, while
the latest subscription of the hub is `last`. -/
inductive Touch (last id : SubscriptionId) :
    Option (Pipeline (Publication π α) ρ α) → List (Event π ρ α) →
      Option (Pipeline (Publication π α) ρ α) → Prop
  | stay (o : Option (Pipeline (Publication π α) ρ α)) : Touch last id o [] o
  | store {p p' : Pipeline (Publication π α) ρ α} {v : α} {received : List (ρ × Option α)}
      (caller : π) :
      p.isOpen = true → p.buffer.hasRoom = true → p.store v = (p', received) →
      Touch last id (some p) (.stored id caller v :: answers id received) (some p')
  | park {p : Pipeline (Publication π α) ρ α} (q : Publication π α) :
      p.isOpen = true → p.buffer.hasRoom = false →
      Touch last id (some p) [] (some (p.park q q.value))
  | read {p p' : Pipeline (Publication π α) ρ α} {reception : Reception α}
      {publication : Option (Publication π α)} :
      p.tryReceive = (p', reception, publication) →
      Touch last id (some p) (readLog id reception publication) (some p')
  | retire (p : Pipeline (Publication π α) ρ α) :
      Touch last id (some p) (answers id (p.receiver.toList.map (·, none))) (some p.retired)
  | cancel (p : Pipeline (Publication π α) ρ α) :
      p.isOpen = true →
      Touch last id (some p) (.cancelled id :: answers id (p.receiver.toList.map (·, none)))
        (some p.cancelled)
  | await {p : Pipeline (Publication π α) ρ α} (caller : ρ) :
      p.isOpen = true → p.unread = [] →
      Touch last id (some p) [] (some { p with receiver := some caller })
  | subscribe (n : Nat) : last < id → Touch last id none [] (some (.new n))
  | abandon (o : Option (Pipeline (Publication π α) ρ α)) : Touch last id o [.abandoned id] none

section touch

variable {s t : Scene π ρ α} {log : List (Event π ρ α)}

theorem logAt_retireAllLog {h : Hub π ρ α} (hs : h.Sound) (id : SubscriptionId) :
    logAt id (retireAllLog h.pipelines : List (Event π ρ α)) =
      match h.pipeline? id with
      | none => []
      | some p => answers id (p.receiver.toList.map (·, none)) := by
  have hflat : ∀ l : List (SubscriptionId × Pipeline (Publication π α) ρ α),
      (∀ e ∈ l, e.1 ≠ id) →
      logAt id (l.flatMap fun e => answers e.1 (e.2.receiver.toList.map (·, none)) :
        List (Event π ρ α)) = [] := by
    intro l hne
    rw [logAt, List.filter_flatMap, List.flatMap_eq_nil_iff]
    intro e he
    exact (logAt_answers id e.1 _).trans (if_neg (hne e he))
  rw [hs.retireAllLog_eq]
  cases hp : h.pipeline? id with
  | none =>
    refine hflat _ fun e he heq => ?_
    have := List.lookup_eq_none_iff.mp hp e he
    simp [heq] at this
  | some p =>
    obtain ⟨l₁, l₂, hl, -⟩ := exists_split hs.nodup hp
    have hn := hs.nodup
    rw [hl, List.map_append, List.map_cons, List.nodup_append, List.nodup_cons] at hn
    have h₁ := hflat l₁ fun e he => hn.2.2 e.1 (List.mem_map_of_mem he) id (List.mem_cons_self ..)
    have h₂ := hflat l₂ fun e he heq => hn.2.1.1 (List.mem_map.mpr ⟨e, he, heq⟩)
    rw [hl, List.flatMap_append, List.flatMap_cons]
    simp only [logAt, List.filter_append] at h₁ h₂ ⊢
    rw [h₁, h₂, List.nil_append, List.append_nil]
    exact (logAt_answers id id _).trans (if_pos rfl)

theorem touch_setPipeline {h : Hub π ρ α} {i : SubscriptionId}
    {p p' : Pipeline (Publication π α) ρ α} {log : List (Event π ρ α)} (id : SubscriptionId)
    (hp : h.pipeline? i = some p) (hlog : logAt id log = if i = id then log else [])
    (ht : Touch h.lastId i (some p) log (some p')) :
    Touch h.lastId id (h.pipeline? id) (logAt id log) ((h.setPipeline i p').pipeline? id) := by
  rw [pipeline?_setPipeline hp, hlog]
  by_cases hi : i = id
  · subst hi
    rw [if_pos rfl, if_pos rfl, hp]
    exact ht
  · rw [if_neg hi, if_neg (Ne.symm hi)]
    exact .stay _

theorem Move.touch (h : Move s log t) (hs : s.hub.Sound) (id : SubscriptionId) :
    Touch s.hub.lastId id (s.hub.pipeline? id) (logAt id log) (t.hub.pipeline? id) := by
  cases h with
  | store _ hp hopen hroom hstore =>
    exact touch_setPipeline id hp (logAt_cons_answers id rfl _) (.store _ hopen hroom hstore)
  | pass _ _ => exact .stay _
  | miss _ _ _ _ _ => exact .stay _
  | @park h q moving i ahead p _ hp hopen hroom _ =>
    exact touch_setPipeline id hp (by rw [logAt_nil, ite_self]) (.park { q with ahead } hopen hroom)
  | finish _ _ => exact .stay _
  | skip _ _ _ => exact .stay _
  | next _ _ _ => exact .stay _
  | read hp hread => exact touch_setPipeline id hp (logAt_readLog id _ _ _) (.read hread)
  | @shut h pipelines received publications _ hret =>
    rw [hs.retireAll_eq, Prod.mk.injEq] at hret
    obtain ⟨rfl, -⟩ := hret
    have hlookup : List.lookup id (h.pipelines.map fun e => (e.1, e.2.retired)) =
        (h.pipeline? id).map Pipeline.retired := lookup_map (fun _ => Pipeline.retired) _ id
    show Touch h.lastId id (h.pipeline? id) _
      (List.lookup id (h.pipelines.map fun e => (e.1, e.2.retired)))
    rw [hlookup, logAt_retireAllLog hs]
    cases h.pipeline? id with
    | none => exact .stay _
    | some p => exact .retire p

/-- **A turn does one thing to a pipeline, or nothing.** -/
theorem Turn.touch (h : Turn s log t) (hs : s.hub.Sound) (id : SubscriptionId) :
    Touch s.hub.lastId id (s.hub.pipeline? id) (logAt id log) (t.hub.pipeline? id) := by
  cases h with
  | move h => exact h.touch hs id
  | subscribe h n hc =>
    show Touch h.lastId id (h.pipeline? id) []
      (List.lookup id (h.pipelines ++ [(h.lastId + 1, .new n)]))
    rw [List.lookup_append]
    show Touch h.lastId id (h.pipeline? id) [] ((h.pipeline? id).or _)
    cases hp : h.pipeline? id with
    | some p => exact .stay _
    | none =>
      rw [Option.none_or, List.lookup_cons]
      split
      · rename_i hid
        rw [beq_iff_eq] at hid
        exact .subscribe n (by rw [hid]; exact Nat.lt_succ_self _)
      · exact .stay _
  | call h caller order v later hc => exact .stay _
  | decline h caller => exact .stay _
  | cancel hp hopen hcancel =>
    rw [(hs.fits_of hp).settled.cancel_eq, Prod.mk.injEq, Prod.mk.injEq] at hcancel
    obtain ⟨rfl, rfl, -⟩ := hcancel
    exact touch_setPipeline id hp (logAt_cons_answers id rfl _) (.cancel _ hopen)
  | abandon h i hshut =>
    show Touch h.lastId id (h.pipeline? id) (logAt id [.abandoned i])
      (List.lookup id (h.pipelines.filter (·.1 != i)))
    rw [lookup_forget]
    by_cases hi : i = id
    · subst hi
      have hlog : logAt i [.abandoned i] = ([.abandoned i] : List (Event π ρ α)) := by
        simp [logAt, Event.isAt]
      rw [if_pos rfl, hlog]
      exact .abandon _
    · have hlog : logAt id [.abandoned i] = ([] : List (Event π ρ α)) := by
        simp [logAt, Event.isAt, hi]
      rw [if_neg (Ne.symm hi), hlog]
      exact .stay _
  | await caller hp hopen hu =>
    exact touch_setPipeline id hp (by rw [logAt_nil, ite_self]) (.await caller hopen hu)
  | disown h => exact .stay _

theorem Turn.lastId_le (h : Turn s log t) : s.hub.lastId ≤ t.hub.lastId := by
  cases h with
  | move h => cases h <;> exact Nat.le_refl _
  | subscribe h n hc => exact Nat.le_succ _
  | _ => exact Nat.le_refl _

end touch

/-! ## The account of one pipeline -/

/-- The values pass through a pipeline in order, and a shut one takes none. -/
structure Carries (id : SubscriptionId) (log : List (Event π ρ α))
    (p p' : Pipeline (Publication π α) ρ α) : Prop where
  unread : takenBy id log ++ p'.unread = p.unread ++ acceptedBy id log
  shut : p.isOpen = false → p'.isOpen = false ∧ storedIn id log = []
  room : p'.room = p.room
  capacity : p'.buffer.capacity = p.buffer.capacity

section carries

variable {last id : SubscriptionId} {p p' : Pipeline (Publication π α) ρ α}

theorem Carries.of_silent {log : List (Event π ρ α)} (hs : storedIn id log = [])
    (ht : takenBy id log = []) (hu : p'.unread = p.unread)
    (hshut : p.isOpen = false → p'.isOpen = false) (hroom : p'.room = p.room)
    (hcap : p'.buffer.capacity = p.buffer.capacity) : Carries id log p p' :=
  ⟨by simp [acceptedBy, hs, ht, hu], fun h => ⟨hshut h, hs⟩, hroom, hcap⟩

@[simp] theorem storedIn_stored (caller : π) (v : α) (log : List (Event π ρ α)) :
    storedIn id (.stored id caller v :: log) = (caller, v) :: storedIn id log := by
  simp [storedIn]

@[simp] theorem storedIn_answers (i : SubscriptionId) (received : List (ρ × Option α)) :
    storedIn id (answers i received : List (Event π ρ α)) = [] := by
  simp [storedIn, answers]

/-- Receives that are answered because a pipeline was shut take nothing. -/
theorem takenBy_answers_none (i : SubscriptionId) (callers : List ρ) :
    takenBy id (answers i (callers.map (·, none)) : List (Event π ρ α)) = [] := by
  simp [takenBy, answers, List.filterMap_map, Function.comp_def]

theorem carries_store {policy : Policy} {closed : Bool} (h : Fits closed policy p)
    (hopen : p.isOpen = true) (hroom : p.buffer.hasRoom = true) {v : α} (caller : π)
    {received : List (ρ × Option α)} (hs : p.store v = (p', received)) :
    Carries id (.stored id caller v :: answers id received) p p' := by
  obtain ⟨rfl, -, hu, hshell⟩ := h.settled.of_store hroom hs
  obtain ⟨hr, hc, -, -, -⟩ := Pipeline.shell_eq_iff.mp hshell
  have htaken : takenBy id
      (.stored id caller v :: answers id (p.receiver.toList.map (·, some v)) : List (Event π ρ α)) =
        if p.receiver.isSome then [v] else [] := by
    cases p.receiver <;> simp [takenBy, answers]
  refine ⟨?_, fun h => absurd (hopen.symm.trans h) Bool.noConfusion, hr, hc⟩
  rw [acceptedBy, storedIn_stored, storedIn_answers, htaken, hu]
  cases hrec : p.receiver with
  | none => simp
  | some c =>
    rw [h.settled.unread_of_receiver (by rw [hrec]; exact Option.some_ne_none c)]
    rfl

theorem carries_read {policy : Policy} {closed : Bool} (h : Fits closed policy p)
    {reception : Reception α} {publication : Option (Publication π α)}
    (hr : p.tryReceive = (p', reception, publication)) :
    Carries id (readLog id reception publication) p p' := by
  cases hu : p.unread with
  | nil =>
    rw [Pipeline.tryReceive_nil hu, Prod.mk.injEq, Prod.mk.injEq] at hr
    obtain ⟨rfl, rfl, rfl⟩ := hr
    refine .of_silent ?_ ?_ rfl (fun h => h) rfl rfl
    · cases p.buffer.closed <;> rfl
    · cases p.buffer.closed <;> rfl
  | cons v rest =>
    obtain ⟨rfl, rfl, -, hunread, hwait, hshell⟩ := h.settled.of_tryReceive hu hr
    obtain ⟨hroom, hcap, hclosed, -, -⟩ := Pipeline.shell_eq_iff.mp hshell
    have hcarried := h.carried
    refine ⟨?_, fun hshut => ?_, hroom, hcap⟩
    · rw [hunread, hu]
      cases hw : p.waiting.toList with
      | nil => simp [readLog, takenBy, acceptedBy, storedIn]
      | cons w ws =>
        have := hcarried w (by rw [hw]; exact List.mem_cons_self ..)
        simp [readLog, takenBy, acceptedBy, storedIn, this]
    · have hc : p.buffer.closed = true := by simpa [Pipeline.isOpen] using hshut
      refine ⟨?_, ?_⟩
      · rw [Pipeline.isOpen, hclosed, hc]
        rfl
      · rw [(h.settled.idle_of_closed hc).1]
        rfl

/-- What may become of a pipeline: it carries on, it is cancelled, or it goes away. -/
theorem Touch.outcome {policy : Policy} {closed : Bool}
    {o : Option (Pipeline (Publication π α) ρ α)} {log : List (Event π ρ α)}
    (ht : Touch last id (some p) log o) (h : Fits closed policy p) :
    (.cancelled id ∉ log ∧ .abandoned id ∉ log ∧ ∃ p', o = some p' ∧ Carries id log p p') ∨
      (.cancelled id ∈ log ∧ o = some p.cancelled ∧ storedIn id log = [] ∧ takenBy id log = []) ∨
      (.abandoned id ∈ log ∧ o = none ∧ storedIn id log = [] ∧ takenBy id log = []) := by
  have hans : ∀ received : List (ρ × Option α),
      (.cancelled id : Event π ρ α) ∉ answers id received ∧
        (.abandoned id : Event π ρ α) ∉ answers id received := by
    simp [answers]
  cases ht with
  | stay _ =>
    exact Or.inl ⟨List.not_mem_nil, List.not_mem_nil, p, rfl,
      .of_silent rfl rfl rfl (fun h => h) rfl rfl⟩
  | store caller hopen hroom hs =>
    refine Or.inl ⟨?_, ?_, _, rfl, carries_store h hopen hroom caller hs⟩
    · simpa using (hans _).1
    · simpa using (hans _).2
  | park q hopen hfull =>
    exact Or.inl ⟨List.not_mem_nil, List.not_mem_nil, _, rfl,
      .of_silent rfl rfl rfl (fun h => h) rfl rfl⟩
  | @read p p' reception publication hr =>
    refine Or.inl ⟨?_, ?_, _, rfl, carries_read h hr⟩
    · cases reception <;> cases publication <;> simp [readLog]
    · cases reception <;> cases publication <;> simp [readLog]
  | retire p =>
    refine Or.inl ⟨(hans _).1, (hans _).2, _, rfl, ?_⟩
    exact .of_silent (storedIn_answers ..) (takenBy_answers_none ..) rfl (fun _ => rfl) rfl rfl
  | cancel p hopen =>
    refine Or.inr (Or.inl ⟨List.mem_cons_self .., rfl, ?_, ?_⟩)
    · exact storedIn_answers id _
    · exact takenBy_answers_none id _
  | await caller hopen hu =>
    exact Or.inl ⟨List.not_mem_nil, List.not_mem_nil, _, rfl,
      .of_silent rfl rfl rfl (fun h => h) rfl rfl⟩
  | abandon _ => exact Or.inr (Or.inr ⟨List.mem_singleton.mpr rfl, rfl, rfl, rfl⟩)

theorem Touch.absent {o : Option (Pipeline (Publication π α) ρ α)} {log : List (Event π ρ α)}
    (ht : Touch last id none log o) :
    storedIn id log = [] ∧ takenBy id log = [] ∧ (id ≤ last → o = none) := by
  cases ht with
  | stay _ => exact ⟨rfl, rfl, fun _ => rfl⟩
  | subscribe n hlt => exact ⟨rfl, rfl, fun hle => absurd hle (Nat.not_le.mpr hlt)⟩
  | abandon _ => exact ⟨rfl, rfl, fun _ => rfl⟩

end carries

/-! ## The account of a stretch of turns -/

/-- The unread values of a subscription; without a holder there are none. -/
def unreadOf (h : Hub π ρ α) (id : SubscriptionId) : List α :=
  ((h.pipeline? id).map (·.unread)).getD []

/-- The log of a stretch cuts a subscription off. -/
def CutIn (id : SubscriptionId) (log : List (Event π ρ α)) : Prop :=
  .cancelled id ∈ log ∨ .abandoned id ∈ log

theorem cutIn_append {id : SubscriptionId} {log log' : List (Event π ρ α)} :
    CutIn id (log ++ log') ↔ CutIn id log ∨ CutIn id log' := by
  simp only [CutIn, List.mem_append]
  tauto

/-- How a subscription stands after a stretch of a hub's life that began with the pipeline `p₀`. -/
structure Account (id : SubscriptionId) (p₀ : Pipeline (Publication π α) ρ α) (s : Scene π ρ α)
    (log : List (Event π ρ α)) : Prop where
  sound : s.hub.Sound
  known : id ≤ s.hub.lastId
  kept : ¬ CutIn id log → ∃ p, s.hub.pipeline? id = some p ∧
    takenBy id log ++ p.unread = p₀.unread ++ acceptedBy id log
  cut : CutIn id log → ¬ s.hub.Registered id ∧
    takenBy id log ++ s.hub.unreadOf id <+: p₀.unread ++ acceptedBy id log
  held : .abandoned id ∉ log → (s.hub.pipeline? id).isSome = true

section account

variable {id : SubscriptionId} {p p' p₀ : Pipeline (Publication π α) ρ α} {s t : Scene π ρ α}
  {log l : List (Event π ρ α)}

theorem unreadOf_some {h : Hub π ρ α} (hp : h.pipeline? id = some p) :
    h.unreadOf id = p.unread := by
  rw [unreadOf, hp]
  rfl

theorem unreadOf_none {h : Hub π ρ α} (hp : h.pipeline? id = none) : h.unreadOf id = [] := by
  rw [unreadOf, hp]
  rfl

theorem not_registered_of_none {h : Hub π ρ α} (hp : h.pipeline? id = none) :
    ¬ h.Registered id := by
  rintro ⟨p, hp', -⟩
  rw [hp] at hp'
  cases hp'

theorem not_registered_of_shut {h : Hub π ρ α} (hp : h.pipeline? id = some p)
    (hshut : p.isOpen = false) : ¬ h.Registered id := by
  rintro ⟨q, hq, hopen⟩
  rw [hp, Option.some.injEq] at hq
  rw [hq, hopen] at hshut
  cases hshut

theorem isPrefix_unread_cancelled (p : Pipeline (Publication π α) ρ α) :
    p.cancelled.unread <+: p.unread := by
  rw [Pipeline.unread_cancelled, Pipeline.unread]
  exact List.prefix_append _ _

theorem carries_logAt : Carries id (logAt id log) p p' ↔ Carries id log p p' := by
  have hst := storedIn_logAt id log
  have htk := takenBy_logAt id log
  constructor
  · rintro ⟨hu, hshut, hr, hc⟩
    rw [acceptedBy, hst, htk] at hu
    rw [hst] at hshut
    exact ⟨hu, hshut, hr, hc⟩
  · rintro ⟨hu, hshut, hr, hc⟩
    refine ⟨?_, ?_, hr, hc⟩
    · rw [acceptedBy, hst, htk]
      exact hu
    · rw [hst]
      exact hshut

theorem cutIn_logAt : CutIn id (logAt id log) ↔ CutIn id log := by
  simp [CutIn, mem_logAt, Event.isAt]

/-- **What becomes of a pipeline in a turn**: it carries on, or it is cut off. -/
theorem Turn.outcome (h : Turn s log t) (hs : s.hub.Sound) (hp : s.hub.pipeline? id = some p) :
    (¬ CutIn id log ∧ ∃ p', t.hub.pipeline? id = some p' ∧ Carries id log p p') ∨
      (CutIn id log ∧ storedIn id log = [] ∧ takenBy id log = [] ∧ ¬ t.hub.Registered id ∧
        t.hub.unreadOf id <+: p.unread ∧
        (.abandoned id ∉ log → (t.hub.pipeline? id).isSome = true)) := by
  have ht := h.touch hs id
  rw [hp] at ht
  rcases ht.outcome (hs.fits_of hp) with ⟨hc, ha, p', hp', hcarries⟩ | ⟨hc, hp', hst, htk⟩ |
    ⟨ha, hp', hst, htk⟩
  · refine Or.inl ⟨?_, p', hp', carries_logAt.mp hcarries⟩
    rw [← cutIn_logAt]
    exact not_or.mpr ⟨hc, ha⟩
  · refine Or.inr ⟨cutIn_logAt.mp (Or.inl hc), storedIn_logAt id log ▸ hst,
      takenBy_logAt id log ▸ htk, not_registered_of_shut hp' rfl, ?_, fun _ => ?_⟩
    · rw [unreadOf_some hp']
      exact isPrefix_unread_cancelled p
    · rw [hp']
      rfl
  · refine Or.inr ⟨cutIn_logAt.mp (Or.inr ha), storedIn_logAt id log ▸ hst,
      takenBy_logAt id log ▸ htk, not_registered_of_none hp', ?_, fun hn => ?_⟩
    · rw [unreadOf_none hp']
      exact List.nil_prefix
    · exact absurd (mem_logAt.mp ha).1 hn

/-- At a subscription that is not there nothing happens, and once the name has been given out, none
comes. -/
theorem Turn.absent (h : Turn s log t) (hs : s.hub.Sound) (hp : s.hub.pipeline? id = none) :
    storedIn id log = [] ∧ takenBy id log = [] ∧
      (id ≤ s.hub.lastId → t.hub.pipeline? id = none) := by
  have ht := h.touch hs id
  rw [hp] at ht
  rw [← storedIn_logAt, ← takenBy_logAt]
  exact ht.absent

/-- A subscription that is not registered never is again. -/
theorem Turn.not_registered (h : Turn s log t) (hs : s.hub.Sound) (hid : id ≤ s.hub.lastId)
    (hreg : ¬ s.hub.Registered id) : ¬ t.hub.Registered id := by
  cases hp : s.hub.pipeline? id with
  | none => exact not_registered_of_none ((h.absent hs hp).2.2 hid)
  | some p =>
    rcases h.outcome hs hp with ⟨-, p', hp', hc⟩ | ⟨-, -, -, hreg', -, -⟩
    · exact not_registered_of_shut hp' (hc.shut (not_registered_iff.mp hreg p hp)).1
    · exact hreg'

theorem Turns.not_registered (h : Turns s log t) (hs : s.hub.Sound) (hid : id ≤ s.hub.lastId)
    (hreg : ¬ s.hub.Registered id) : ¬ t.hub.Registered id := by
  induction h with
  | refl _ => exact hreg
  | head hm _ ih =>
    exact ih (hm.sound hs) (Nat.le_trans hid hm.lastId_le) (hm.not_registered hs hid hreg)

theorem Turns.absent (h : Turns s log t) (hs : s.hub.Sound) (hp : s.hub.pipeline? id = none)
    (hid : id ≤ s.hub.lastId) :
    storedIn id log = [] ∧ takenBy id log = [] ∧ t.hub.pipeline? id = none := by
  induction h with
  | refl _ => exact ⟨rfl, rfl, hp⟩
  | head hm _ ih =>
    obtain ⟨hst, htk, hnone⟩ := hm.absent hs hp
    obtain ⟨hst', htk', hend⟩ := ih (hm.sound hs) (hnone hid) (Nat.le_trans hid hm.lastId_le)
    exact ⟨by rw [storedIn_append, hst, hst']; rfl, by rw [takenBy_append, htk, htk']; rfl, hend⟩

theorem Turns.lastId_le (h : Turns s log t) : s.hub.lastId ≤ t.hub.lastId := by
  induction h with
  | refl _ => exact Nat.le_refl _
  | head hm _ ih => exact Nat.le_trans hm.lastId_le ih

theorem Turns.before (h : Turns s log t) (hs : s.hub.Sound) (hid : t.hub.lastId < id) :
    storedIn id log = [] ∧ takenBy id log = [] := by
  induction h with
  | refl _ => exact ⟨rfl, rfl⟩
  | head hm hrest ih =>
    have hp := hs.pipeline?_of_lt
      (Nat.lt_of_le_of_lt (Nat.le_trans hm.lastId_le (Turns.lastId_le hrest)) hid)
    obtain ⟨hst, htk, -⟩ := hm.absent hs hp
    obtain ⟨hst', htk'⟩ := ih (hm.sound hs) hid
    exact ⟨by rw [storedIn_append, hst, hst']; rfl, by rw [takenBy_append, htk, htk']; rfl⟩

/-- A turn after which nothing of the subscription comes through any more, but for a part of what
is unread. -/
theorem Account.of_silent (ha : Account id p₀ s log) (hs : t.hub.Sound)
    (hid : s.hub.lastId ≤ t.hub.lastId) (hcut : CutIn id (log ++ l))
    (hst : storedIn id l = []) (htk : takenBy id l = []) (hreg : ¬ t.hub.Registered id)
    (hu : t.hub.unreadOf id <+: s.hub.unreadOf id)
    (hheld : .abandoned id ∉ log ++ l → (t.hub.pipeline? id).isSome = true) :
    Account id p₀ t (log ++ l) := by
  refine ⟨hs, Nat.le_trans ha.known hid, fun hn => absurd hcut hn, fun _ => ⟨hreg, ?_⟩, hheld⟩
  rw [takenBy_append, acceptedBy_append, htk, List.append_nil, acceptedBy.eq_1 id l, hst,
    List.map_nil, List.append_nil]
  have hold : takenBy id log ++ s.hub.unreadOf id <+: p₀.unread ++ acceptedBy id log := by
    by_cases hlog : CutIn id log
    · exact (ha.cut hlog).2
    · obtain ⟨p, hp, hkept⟩ := ha.kept hlog
      exact (unreadOf_some hp ▸ hkept) ▸ List.prefix_refl _
  exact ((List.prefix_append_right_inj _).mpr hu).trans hold

/-- **What a turn adds to the account.** -/
theorem Account.step (ht : Turn s l t) (ha : Account id p₀ s log) : Account id p₀ t (log ++ l) := by
  have hs := ht.sound ha.sound
  have hid := ht.lastId_le
  cases hp : s.hub.pipeline? id with
  | none =>
    obtain ⟨hst, htk, hnone⟩ := ht.absent ha.sound hp
    have hp' := hnone ha.known
    have hgone : .abandoned id ∈ log := by
      by_contra hn
      have := ha.held hn
      rw [hp] at this
      cases this
    refine ha.of_silent hs hid (cutIn_append.mpr (Or.inl (Or.inr hgone))) hst htk
      (not_registered_of_none hp') ?_ fun hn => absurd (List.mem_append_left _ hgone) hn
    exact (unreadOf_none hp').symm ▸ List.nil_prefix
  | some p =>
    rcases ht.outcome ha.sound hp with ⟨hn, p', hp', hc⟩ | ⟨hcut, hst, htk, hreg, hu, hheld⟩
    · have hsome : (t.hub.pipeline? id).isSome = true := by
        rw [hp']
        rfl
      by_cases hlog : CutIn id log
      · -- A subscription that was cut off before stays so, and takes nothing more.
        have hshut : p.isOpen = false := by
          by_contra hopen
          exact (ha.cut hlog).1 ⟨p, hp, by simpa using hopen⟩
        obtain ⟨hshut', hst⟩ := hc.shut hshut
        have hu := hc.unread
        rw [acceptedBy, hst, List.map_nil, List.append_nil] at hu
        refine ⟨hs, Nat.le_trans ha.known hid,
          fun hn' => absurd (cutIn_append.mpr (Or.inl hlog)) hn',
          fun _ => ⟨not_registered_of_shut hp' hshut', ?_⟩, fun _ => hsome⟩
        rw [takenBy_append, acceptedBy_append, acceptedBy.eq_1 id l, hst, List.map_nil,
          List.append_nil, unreadOf_some hp', List.append_assoc, hu, ← unreadOf_some hp]
        exact (ha.cut hlog).2
      · obtain ⟨q, hq, hkept⟩ := ha.kept hlog
        rw [hp, Option.some.injEq] at hq
        subst hq
        refine ⟨hs, Nat.le_trans ha.known hid, fun _ => ⟨p', hp', ?_⟩,
          fun hcut => absurd (cutIn_append.mp hcut) (not_or.mpr ⟨hlog, hn⟩), fun _ => hsome⟩
        rw [takenBy_append, acceptedBy_append, List.append_assoc, hc.unread, ← List.append_assoc,
          hkept, List.append_assoc]
    · exact ha.of_silent hs hid (cutIn_append.mpr (Or.inr hcut)) hst htk hreg
        (by rw [unreadOf_some hp]; exact hu)
        fun hn => hheld fun hmem => hn (List.mem_append_right _ hmem)

/-- **The account of a subscription holds at every moment.** -/
theorem Turns.account (h : Turns s log t) (hs : s.hub.Sound) (hp : s.hub.pipeline? id = some p₀) :
    Account id p₀ t log := by
  have hbegin : Account id p₀ s [] :=
    ⟨hs, (hs.named _ (mem_of_pipeline? hp)).2,
      fun _ => ⟨p₀, hp, by simp [takenBy, acceptedBy, storedIn]⟩,
      fun hcut => absurd hcut (by simp [CutIn]), fun _ => by rw [hp]; rfl⟩
  exact h.keeps Account.step hbegin

end account

end Switchboard.Hub
