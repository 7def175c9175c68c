import Switchboard.Proofs.Hub.Run

/-!
# What the users of a hub are told

The log of a run is kept by a bystander. What the users themselves learn stands in the replies to
their calls: the publishes that return, with their results (`results`), and the values that the
holder of a subscription receives (`receivedBy`).

**Values received.** A call that receives from a handle gets its values in its own reply or, if it
has to wait, in the reply to a later call. Which handle a waiting call was made on is told by the
step that made it (`handleOf`), and not by the hub that answers it.

**Who waits** (`Attends`). A hub answers a receive on the subscription that it was made on, and
nobody begins to wait but the caller of a receive.

**Main statements** (`returnsIn_run`, `receivedBy_eq`). In every run the log and the replies name the
same publishes returned and the same values received, in the same order.
-/

namespace Switchboard.Hub

variable {π ρ α β : Type}

/-! ## The reply to a step -/

/-- The values that an answer gives to the caller of a step. -/
def Answer.values : Answer α → List α
  | received result => result.values
  | tried result => result.values
  | drained result => result.values
  | subscribed _ | published _ | done | busy | gone => []

/-- The handle from which a step receives. -/
def Step.source : Step α → Option SubscriptionId
  | receive id | tryReceive id | drain id => some id
  | subscribe _ | publish _ _ | burst _ _ | cancel _ | abandon _ | close | disown => none

/-- The publishes that return with a reply, with their results: that of the call itself, if it does
not wait, and then those that were parked. -/
def Reply.reports (call : Nat) (reply : Reply Nat Nat α (Answer α)) : List (Nat × Nat) :=
  (match reply.result with
    | .published (.returned n) => [(call, n)]
    | _ => []) ++ reply.returned

/-- The publishes that return in a step, with their results. -/
def Step.reports (h : Hub Nat Nat α) (call : Nat) (s : Step α) : List (Nat × Nat) :=
  (s.act h call).reports call

/-- The values that the holder of `S` receives in a step: those that the step receives from `S`, and
those with which the receives on `S` return that have waited. A call in the past was made on
`handle call`. -/
def Step.receipts (handle : Nat → Option SubscriptionId) (S : SubscriptionId)
    (h : Hub Nat Nat α) (call : Nat) (s : Step α) : List α :=
  (if s.source = some S then (s.act h call).result.values else []) ++
    (s.act h call).received.filterMap fun r => if handle r.1 = some S then r.2 else none

section replies

variable {h : Hub Nat Nat α} {call : Nat} {s : Step α} {id : SubscriptionId}

theorem publishAll_reply (h : Hub Nat Nat α) (call : Nat) (order : List SubscriptionId)
    (vs : List α) :
    (h.publishAll call order vs).received = answersIn (h.publishAllLog call order vs) ∧
      ((h.publishAll call order vs).map Answer.published).reports call =
        returnsIn (h.publishAllLog call order vs) := by
  refine ⟨h.publishAll_received call order vs, ?_⟩
  rw [returnsIn_publishAllLog, Reply.reports, Reply.map]
  cases (h.publishAll call order vs).result <;> rfl

/-- **The log of a step names the calls that its reply answers**: receives that waited, and
publishes. -/
theorem Step.reply (h : Hub Nat Nat α) (call : Nat) (s : Step α) :
    (s.act h call).received = answersIn (s.log h call) ∧
      s.reports h call = returnsIn (s.log h call) := by
  rw [reports]
  have hy := s.yields h call
  generalize s.act h call = reply, s.log h call = log at hy ⊢
  cases hy with
  | gone _ | busy _ | subscribe n _ => exact ⟨rfl, rfl⟩
  | publish order v _ => exact h.publishAll_reply call order [v]
  | burst order vs _ => exact h.publishAll_reply call order vs
  | receive id _ =>
    obtain ⟨-, hreceived, hreturned⟩ := h.receive_reply id call
    exact ⟨hreceived.trans (h.tryReceive_reply id).1, hreturned.trans (h.tryReceive_reply id).2⟩
  | tryReceive id _ => exact h.tryReceive_reply id
  | drain id _ => exact h.drain_reply id
  | cancel id => exact h.cancel_reply id
  | abandon id _ => exact h.abandon_reply id
  | close _ => exact h.close_reply
  | disown _ => exact h.disown_reply

/-- The log of a step that receives names the values that the step comes to. -/
theorem Step.readsIn_of_source (hs : s.source = some id) :
    readsIn (s.log h call) = (s.act h call).result.values.map (id, ·) := by
  have hy := s.yields h call
  generalize s.act h call = reply, s.log h call = log at hy ⊢
  cases hy with
  | gone _ | busy _ => rfl
  | receive i _ =>
    obtain rfl : i = id := Option.some.inj hs
    have hreads := h.readsIn_tryReceiveLog i
    rwa [← (h.receive_reply i call).1] at hreads
  | tryReceive i _ =>
    obtain rfl : i = id := Option.some.inj hs
    exact h.readsIn_tryReceiveLog i
  | drain i _ =>
    obtain rfl : i = id := Option.some.inj hs
    exact h.readsIn_drainLog i
  | _ => cases hs

theorem Step.readsIn_of_no_source (hs : s.source = none) : readsIn (s.log h call) = [] := by
  have hy := s.yields h call
  generalize s.act h call = reply, s.log h call = log at hy ⊢
  cases hy with
  | gone _ | busy _ | subscribe n _ => rfl
  | publish order v _ => exact readsIn_publishAllLog ..
  | burst order vs _ => exact readsIn_publishAllLog ..
  | cancel id => exact readsIn_cancelLog h id
  | abandon id _ =>
    rw [abandonLog, readsIn_append, readsIn_cancelLog]
    rfl
  | close _ => exact readsIn_closeLog h
  | disown _ => exact readsIn_settleLog _
  | receive id _ | tryReceive id _ | drain id _ => cases hs

end replies

/-! ## Who waits -/

/-- The receive that waits on a subscription. -/
def waiterOn (h : Hub π ρ α) (id : SubscriptionId) : Option ρ :=
  (h.pipeline? id).bind (·.receiver)

/-- From one moment to another nobody begins to wait, and a receive that is answered waits on the
subscription for which it is answered. -/
structure Attends (h : Hub π ρ α) (log : List (Event π ρ α)) (h' : Hub π ρ α) : Prop where
  waits : ∀ id c, h'.waiterOn id = some c → h.waiterOn id = some c
  answered : ∀ id c v, .answered id c v ∈ log → h.waiterOn id = some c

section attends

variable {h h' h'' : Hub π ρ α} {log log' : List (Event π ρ α)} {id : SubscriptionId}
  {p p' : Pipeline (Publication π α) ρ α}

theorem waiterOn_some (hp : h.pipeline? id = some p) : h.waiterOn id = p.receiver := by
  rw [waiterOn, hp]
  rfl

theorem isWaiting_eq_isSome (h : Hub π ρ α) (id : SubscriptionId) :
    h.isWaiting id = (h.waiterOn id).isSome := by
  rw [isWaiting, waiterOn]
  cases h.pipeline? id <;> rfl

theorem Attends.refl (h : Hub π ρ α) : Attends h [] h :=
  ⟨fun _ _ hc => hc, fun _ _ _ hmem => absurd hmem List.not_mem_nil⟩

theorem Attends.trans (ha : Attends h log h') (ha' : Attends h' log' h'') :
    Attends h (log ++ log') h'' where
  waits id c hc := ha.waits id c (ha'.waits id c hc)
  answered id c v hmem := (List.mem_append.mp hmem).elim (ha.answered id c v)
    fun hmem => ha.waits id c (ha'.answered id c v hmem)

theorem Attends.of_pipelines (hp : h'.pipelines = h.pipelines)
    (hlog : ∀ id c v, .answered id c v ∉ log) : Attends h log h' where
  waits id c hc := by rwa [waiterOn, pipeline?, hp] at hc
  answered id c v hmem := absurd hmem (hlog id c v)

theorem of_mem_answers {i : SubscriptionId} {c : ρ} {v w : Option α} {waiter : Option ρ}
    (hmem : (.answered i c v : Event π ρ α) ∈ answers id (waiter.toList.map (·, w))) :
    i = id ∧ waiter = some c := by
  simp only [answers, List.map_map, List.mem_map, Option.mem_toList, Function.comp_apply,
    Event.answered.injEq] at hmem
  obtain ⟨_, hc, rfl, rfl, -⟩ := hmem
  exact ⟨rfl, hc⟩

/-- A pipeline changes, and the receive that waits there stays or is answered. -/
theorem Attends.of_setPipeline (hp : h.pipeline? id = some p)
    (hwaits : ∀ c, p'.receiver = some c → p.receiver = some c)
    (hlog : ∀ i c v, .answered i c v ∈ log → i = id ∧ p.receiver = some c) :
    Attends h log (h.setPipeline id p') where
  waits i c hc := by
    rw [waiterOn, pipeline?_setPipeline hp] at hc
    by_cases hi : i = id
    · rw [if_pos hi] at hc
      rw [hi, waiterOn_some hp]
      exact hwaits c hc
    · rwa [if_neg hi] at hc
  answered i c v hmem := by
    obtain ⟨rfl, hc⟩ := hlog i c v hmem
    rw [waiterOn_some hp, hc]

theorem Move.attends {s t : Scene π ρ α} (h : Move s log t) (hs : s.hub.Sound) :
    Attends s.hub log t.hub := by
  cases h with
  | @store h q moving id ahead p p' received _ hp _ hroom hstore =>
    obtain ⟨rfl, -, -, hshell⟩ := (hs.fits_of hp).settled.of_store hroom hstore
    -- The value that is stored goes on to the receive that waits, if there is one.
    have hnone : p'.receiver = none := (Pipeline.shell_eq_iff.mp hshell).2.2.2.2
    refine .of_setPipeline hp (fun c hc => ?_) fun i c v hmem => of_mem_answers
      ((List.mem_cons.mp hmem).resolve_left fun heq => by cases heq)
    rw [hnone] at hc
    cases hc
  | park _ hp _ _ _ =>
    exact .of_setPipeline hp (fun c hc => hc) fun _ _ _ hmem => absurd hmem List.not_mem_nil
  | @read h id p p' reception publication hp hread =>
    have hsame : p'.receiver = p.receiver := by
      cases hu : p.unread with
      | nil =>
        rw [Pipeline.tryReceive_nil hu, Prod.mk.injEq] at hread
        rw [hread.1]
      | cons v rest =>
        obtain ⟨-, -, -, -, -, hshell⟩ := (hs.fits_of hp).settled.of_tryReceive hu hread
        exact (Pipeline.shell_eq_iff.mp hshell).2.2.2.2
    refine .of_setPipeline hp (fun c hc => hsame ▸ hc) fun i c v hmem => ?_
    cases reception <;> cases publication <;> simp [readLog] at hmem
  | @shut h pipelines received publications _ hret =>
    rw [hs.retireAll_eq, Prod.mk.injEq] at hret
    obtain ⟨rfl, -⟩ := hret
    refine ⟨fun i c hc => ?_, fun i c v hmem => ?_⟩
    · have hlookup : List.lookup i (h.pipelines.map fun e => (e.1, e.2.retired)) =
          (h.pipeline? i).map Pipeline.retired := lookup_map (fun _ => Pipeline.retired) _ i
      rw [waiterOn, pipeline?, hlookup] at hc
      cases hp : h.pipeline? i <;> simp [hp, Pipeline.retired] at hc
    · rw [hs.retireAllLog_eq, List.mem_flatMap] at hmem
      obtain ⟨e, he, hmem⟩ := hmem
      obtain ⟨rfl, hc⟩ := of_mem_answers hmem
      exact (waiterOn_some (hs.pipeline?_of_mem he)).trans hc
  | finish _ _ => exact .of_pipelines rfl (by simp)
  | pass _ _ => exact .of_pipelines rfl (by simp)
  | miss _ _ _ _ _ => exact .of_pipelines rfl (by simp)
  | skip _ _ _ => exact .of_pipelines rfl (by simp)
  | next _ _ _ => exact .of_pipelines rfl (by simp)

theorem Moves.attends {s t : Scene π ρ α} (h : Moves s log t) (hs : s.hub.Sound) :
    Attends s.hub log t.hub := by
  induction h with
  | refl s => exact .refl s.hub
  | head hm _ ih => exact (hm.attends hs).trans (ih (Turn.sound (.move hm) hs))

theorem publishAll_attends (hs : h.Sound) (caller : π) (order : List SubscriptionId)
    (values : List α) :
    Attends h (h.publishAllLog caller order values) (h.publishAll caller order values).hub := by
  by_cases hc : h.closed = true
  · have hnone := publishEach_of_closed (r := ⟨h, 0, false, []⟩) caller order values hc
    rw [publishAllLog, publishAll, hnone.1, hnone.2]
    exact .of_pipelines rfl (by simp)
  · cases values with
    | nil => exact .of_pipelines rfl (by simp [publishAllLog, publishEachLog])
    | cons v later =>
      obtain ⟨log, hlog, hmoves⟩ := publishAll_moves (by simpa using hc) caller order v later
      rw [hlog]
      have hcalled : Attends h [.called caller] { h with published := h.published + 1 } :=
        .of_pipelines rfl (by simp)
      exact hcalled.trans (hmoves.attends ⟨hs.nodup, hs.named, hs.fits⟩)

theorem cancel_attends (hs : h.Sound) (id : SubscriptionId) :
    Attends h (h.cancelLog id) (h.cancel id).hub := by
  cases hp : h.pipeline? id with
  | none =>
    simp only [cancel, cancelLog, hp]
    exact .refl h
  | some p =>
    simp only [cancel, cancelLog, hp]
    by_cases hopen : p.isOpen = true
    · rw [if_pos hopen, if_pos hopen, (hs.fits_of hp).settled.cancel_eq]
      have hcut : Attends h (.cancelled id :: answers id (p.receiver.toList.map (·, none)))
          (h.setPipeline id p.cancelled) :=
        .of_setPipeline hp (fun c (hc : none = some c) => by cases hc) fun i c v hmem =>
          of_mem_answers ((List.mem_cons.mp hmem).resolve_left fun heq => by cases heq)
      have hmoves := (resumeAll_moves false p.parked
        (⟨h.setPipeline id p.cancelled, (), p.receiver.toList.map (·, none), []⟩ :
          Reply π ρ α Unit)).trans (settle_moves _)
      rw [List.append_assoc]
      exact hcut.trans (Moves.attends hmoves (hs.setPipeline hp (hs.fits_of hp).cancelled))
    · rw [if_neg hopen, if_neg hopen]
      exact .refl h

theorem abandon_attends (hs : h.Sound) (id : SubscriptionId) :
    Attends h (h.abandonLog id) (h.abandon id).hub := by
  refine (cancel_attends hs id).trans ⟨fun i c hc => ?_, fun _ _ _ hmem => by simp at hmem⟩
  rw [waiterOn, abandon, pipeline?, lookup_forget] at hc
  by_cases hi : i = id
  · rw [if_pos hi] at hc
    cases hc
  · rwa [if_neg hi] at hc

theorem disown_attends (hs : h.Sound) : Attends h h.disownLog h.disown.hub := by
  have hgone : Attends h [] { h with owned := false } := .of_pipelines rfl (by simp)
  exact hgone.trans ((settle_moves ⟨{ h with owned := false }, (), [], []⟩).attends
    ⟨hs.nodup, hs.named, hs.fits⟩)

theorem subscribe_attends (hs : h.Sound) (n : Nat) : Attends h [] (h.subscribe n).1 := by
  refine ⟨fun i c hc => ?_, fun _ _ _ hmem => absurd hmem List.not_mem_nil⟩
  unfold subscribe at hc
  split at hc
  · exact hc
  · rw [waiterOn, hs.pipeline?_register] at hc
    split at hc
    · cases hc
    · exact hc

/-- The caller of a receive is the only one who begins to wait in it. -/
theorem waiterOn_receive {i : SubscriptionId} {c caller : ρ}
    (hc : (h.receive id caller).hub.waiterOn i = some c) :
    (h.tryReceive id).hub.waiterOn i = some c ∨ i = id ∧ c = caller := by
  simp only [receive] at hc
  split at hc
  · exact Or.inl hc
  · rename_i p _ hp
    rw [waiterOn, pipeline?_setPipeline hp] at hc
    by_cases hi : i = id
    · rw [if_pos hi] at hc
      exact Or.inr ⟨hi, (Option.some.inj hc).symm⟩
    · rw [if_neg hi] at hc
      exact Or.inl hc
  · exact Or.inl hc

end attends

/-- **Only those who wait are answered, and only the caller of a receive begins to wait.** -/
theorem Step.attends {h : Hub Nat Nat α} (hs : h.Sound) (call : Nat) (s : Step α) :
    (∀ id c v, .answered id c v ∈ s.log h call → h.waiterOn id = some c) ∧
      ∀ id c, (s.act h call).hub.waiterOn id = some c →
        h.waiterOn id = some c ∨ s = .receive id ∧ c = call := by
  have hquiet : ∀ {s : Step α} {reply : Reply Nat Nat α (Answer α)} {log : List (Event Nat Nat α)},
      Attends h log reply.hub → (∀ id c v, .answered id c v ∈ log → h.waiterOn id = some c) ∧
        ∀ id c, reply.hub.waiterOn id = some c →
          h.waiterOn id = some c ∨ s = .receive id ∧ c = call :=
    fun ha => ⟨ha.answered, fun id c hc => Or.inl (ha.waits id c hc)⟩
  have hy := s.yields h call
  generalize s.act h call = reply, s.log h call = log at hy ⊢
  cases hy with
  | gone _ | busy _ => exact hquiet (.refl h)
  | subscribe n _ => exact hquiet (subscribe_attends hs n)
  | publish order v _ => exact hquiet (publishAll_attends hs call order [v])
  | burst order vs _ => exact hquiet (publishAll_attends hs call order vs)
  | receive i _ =>
    -- What is received at once is received as without waiting; only then does the caller wait.
    have ha := (h.tryReceive_moves i).attends hs
    refine ⟨ha.answered, fun id c hc => ?_⟩
    rcases waiterOn_receive hc with hc | ⟨rfl, rfl⟩
    · exact Or.inl (ha.waits id c hc)
    · exact Or.inr ⟨rfl, rfl⟩
  | tryReceive i _ => exact hquiet ((h.tryReceive_moves i).attends hs)
  | drain i _ => exact hquiet ((h.drain_moves i).attends hs)
  | cancel i => exact hquiet (cancel_attends hs i)
  | abandon i _ => exact hquiet (abandon_attends hs i)
  | close _ => exact hquiet (h.close_moves.attends hs)
  | disown _ => exact hquiet (disown_attends hs)

/-! ## Values received -/

section received

variable {h : Hub Nat Nat α} {call : Nat} {S : SubscriptionId} {log : List (Event Nat Nat α)}
  {handle : Nat → Option SubscriptionId}

theorem takenBy_of_no_answer (hnone : ∀ c v, .answered S c v ∉ log) :
    takenBy S log = (readsIn log).filterMap fun r => if r.1 = S then some r.2 else none := by
  rw [takenBy, readsIn, List.filterMap_filterMap]
  refine List.filterMap_congr fun e he => ?_
  cases e with
  | answered i c v =>
    have hi : i ≠ S := by
      rintro rfl
      exact hnone c v he
    exact if_neg hi
  | _ => rfl

theorem takenBy_of_no_read (hnone : ∀ v, .received S v ∉ log)
    (hhandle : ∀ i c v, .answered i c v ∈ log → handle c = some i) :
    takenBy S log = (answersIn log).filterMap fun r => if handle r.1 = some S then r.2 else none := by
  rw [takenBy, answersIn, List.filterMap_filterMap]
  refine List.filterMap_congr fun e he => ?_
  cases e with
  | received i v =>
    have hi : i ≠ S := by
      rintro rfl
      exact hnone v he
    exact if_neg hi
  | answered i c v => simp [hhandle i c v he]
  | _ => rfl

theorem mem_readsIn {v : α} : (S, v) ∈ readsIn log ↔ .received S v ∈ log := by
  simp only [readsIn, List.mem_filterMap]
  constructor
  · rintro ⟨e, he, heq⟩
    cases e with
    | received i w =>
      obtain ⟨rfl, rfl⟩ := Prod.mk.inj (Option.some.inj heq)
      exact he
    | _ => cases heq
  · exact fun he => ⟨_, he, rfl⟩

theorem Step.log_of_waiting {s : Step α} (hs : s.source = some S) (hw : h.isWaiting S = true) :
    s.log h call = [] := by
  cases s with
  | receive i | tryReceive i | drain i =>
    obtain rfl : i = S := Option.some.inj hs
    exact if_pos hw
  | _ => cases hs

/-- **The log of a step names the values that its reply gives.** -/
theorem Step.takenBy_log (hs : h.Sound)
    (hhandle : ∀ id c, h.waiterOn id = some c → handle c = some id) (s : Step α) :
    takenBy S (s.log h call) = s.receipts handle S h call := by
  obtain ⟨hanswered, -⟩ := Step.attends hs call s
  have howner : ∀ i c v, .answered i c v ∈ s.log h call → handle c = some i :=
    fun i c v hmem => hhandle i c (hanswered i c v hmem)
  rw [receipts, (Step.reply h call s).1]
  by_cases hsource : s.source = some S
  · -- Who receives from `S` finds nobody waiting there, so nobody is answered on it.
    have hnone : ∀ c v, .answered S c v ∉ s.log h call := by
      intro c v hmem
      have hw : h.isWaiting S = true := by
        rw [isWaiting_eq_isSome, hanswered S c v hmem]
        rfl
      rw [Step.log_of_waiting hsource hw] at hmem
      cases hmem
    have hothers : ((answersIn (s.log h call)).filterMap fun r =>
        if handle r.1 = some S then r.2 else none) = [] := by
      rw [answersIn, List.filterMap_filterMap, List.filterMap_eq_nil_iff]
      intro e he
      cases e with
      | answered i c v =>
        have hi : i ≠ S := by
          rintro rfl
          exact hnone c v he
        simp [howner i c v he, hi]
      | _ => rfl
    rw [if_pos hsource, hothers, List.append_nil, takenBy_of_no_answer hnone,
      Step.readsIn_of_source hsource, List.filterMap_map]
    simp
  · have hnone : ∀ v, .received S v ∉ s.log h call := fun v hmem => by
      rw [← mem_readsIn] at hmem
      cases hs' : s.source with
      | none =>
        rw [Step.readsIn_of_no_source hs'] at hmem
        cases hmem
      | some id =>
        rw [Step.readsIn_of_source hs'] at hmem
        obtain ⟨_, -, heq⟩ := List.mem_map.mp hmem
        rw [(Prod.mk.inj heq).1] at hs'
        exact hsource hs'
    rw [if_neg hsource, List.nil_append]
    exact takenBy_of_no_read hnone howner

end received

/-! ## Runs -/

/-- The handle from which a call receives, if the steps say so. -/
def handleOf (steps : List (Step α)) (call : Nat) : Option SubscriptionId :=
  steps[call]?.bind Step.source

/-- The publishes that return during some steps, with their results. -/
def Run.reports (r : Run α) : List (Step α) → List (Nat × Nat)
  | [] => []
  | s :: rest => s.reports r.hub r.calls ++ (r.next s).reports rest

/-- The values that the holder of `S` receives during some steps. -/
def Run.receipts (handle : Nat → Option SubscriptionId) (S : SubscriptionId) (r : Run α) :
    List (Step α) → List α
  | [] => []
  | s :: rest => s.receipts handle S r.hub r.calls ++ (r.next s).receipts handle S rest

/-- The publishes that have returned in a run, with their results. -/
def results (label : String) (policy : Policy) (steps : List (Step α)) : List (Nat × Nat) :=
  Run.reports ⟨.new label policy, 0, []⟩ steps

/-- The values that the holder of `S` has received in a run, oldest first. -/
def receivedBy (label : String) (policy : Policy) (steps : List (Step α)) (S : SubscriptionId) :
    List α :=
  Run.receipts (handleOf steps) S ⟨.new label policy, 0, []⟩ steps

section runs

variable {r : Run α} {S : SubscriptionId}

theorem Run.returnsIn_extend (r : Run α) (steps : List (Step α)) :
    returnsIn (r.extend steps).log = returnsIn r.log ++ r.reports steps := by
  induction steps generalizing r with
  | nil => exact (List.append_nil _).symm
  | cons s rest ih =>
    rw [Run.extend_cons, ih, Run.next, returnsIn_append, ← (Step.reply ..).2, List.append_assoc]
    rfl

/-- Whoever waits is known to be waiting, if the receives to come are. -/
theorem Run.takenBy_extend {handle : Nat → Option SubscriptionId} (hg : r.hub.Good)
    (hhandle : ∀ id c, r.hub.waiterOn id = some c → handle c = some id) (steps : List (Step α))
    (hsteps : ∀ k id, steps[k]? = some (.receive id) → handle (r.calls + k) = some id) :
    takenBy S (r.extend steps).log = takenBy S r.log ++ r.receipts handle S steps := by
  induction steps generalizing r with
  | nil => exact (List.append_nil _).symm
  | cons s rest ih =>
    have hhandle' : ∀ id c, (r.next s).hub.waiterOn id = some c → handle c = some id := by
      intro id c hc
      rcases (Step.attends hg.sound r.calls s).2 id c hc with hc | ⟨rfl, rfl⟩
      · exact hhandle id c hc
      · exact hsteps 0 id rfl
    have hrest : ∀ k id, rest[k]? = some (.receive id) →
        handle ((r.next s).calls + k) = some id := fun k id hk => by
      rw [Run.next, Nat.add_assoc, Nat.add_comm 1 k]
      exact hsteps (k + 1) id hk
    rw [Run.extend_cons, ih (Step.good hg s) hhandle' hrest, Run.next, takenBy_append,
      Step.takenBy_log hg.sound hhandle, List.append_assoc]
    rfl

/-- **The publishes returned**, by the log and by the replies. -/
theorem returnsIn_run (label : String) (policy : Policy) (steps : List (Step α)) :
    returnsIn (run label policy steps).log = results label policy steps :=
  Run.returnsIn_extend ⟨.new label policy, 0, []⟩ steps

theorem mem_results {label : String} {policy : Policy} {steps : List (Step α)} {k n : Nat} :
    (k, n) ∈ results label policy steps ↔ .returned k n ∈ (run label policy steps).log := by
  rw [← returnsIn_run, returnsIn, List.mem_filterMap]
  constructor
  · rintro ⟨e, he, heq⟩
    cases e with
    | returned c m =>
      obtain ⟨rfl, rfl⟩ := Prod.mk.inj (Option.some.inj heq)
      exact he
    | _ => cases heq
  · exact fun he => ⟨_, he, rfl⟩

/-- **The values received**, by the log and by the replies. -/
theorem receivedBy_eq (label : String) (policy : Policy) (steps : List (Step α))
    (S : SubscriptionId) :
    receivedBy label policy steps S = takenBy S (run label policy steps).log := by
  refine ((Run.takenBy_extend (r := ⟨.new label policy, 0, []⟩) (good_new label policy)
    (fun id c hc => ?_) steps fun k id hk => ?_).trans (List.nil_append _)).symm
  · cases hc
  · rw [handleOf, Nat.zero_add, hk]
    rfl

end runs

end Switchboard.Hub
