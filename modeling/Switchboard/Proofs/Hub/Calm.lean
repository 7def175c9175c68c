import Switchboard.Proofs.Hub.Run

/-!
# Calm hubs

A hub in which no publish is parked. There a receive lets nobody in and a cancel sends nobody on, so
each of them touches the one subscription it is made on, and what it comes to can be said outright.

**Frames** (`Spares`). An operation on one subscription leaves the others as they are.
-/

namespace Switchboard.Hub

variable {π ρ α β : Type}

/-- A hub between two steps in which no publish is parked. -/
structure Calm (h : Hub π ρ α) : Prop extends Good h where
  idle : h.parkedPublications = []

section calm

variable {h : Hub π ρ α} {id S : SubscriptionId} {p : Pipeline (Publication π α) ρ α}

theorem waiting_of_idle (hidle : h.parkedPublications = [])
    {e : SubscriptionId × Pipeline (Publication π α) ρ α} (he : e ∈ h.pipelines) : e.2.waiting = ∅ := by
  have hnone : e.2.parked = [] := List.flatMap_eq_nil_iff.mp hidle e he
  exact Fifo.eq_empty_of_toList (List.map_eq_nil_iff.mp hnone)

theorem Calm.waiting_eq (hc : h.Calm) (hp : h.pipeline? id = some p) : p.waiting = ∅ :=
  waiting_of_idle hc.idle (mem_of_pipeline? hp)

theorem parkedPublications_of_waiting (hw : ∀ e ∈ h.pipelines, e.2.waiting = ∅) :
    h.parkedPublications = [] := by
  apply List.flatMap_eq_nil_iff.mpr
  intro e he
  rw [Pipeline.parked, hw e he]
  rfl

theorem settleLog_of_anchored (ha : h.Anchored) : h.settleLog = [] := by
  rw [settleLog]
  split
  · rfl
  · rename_i hn
    rw [Bool.or_eq_true, Bool.not_eq_true', List.isEmpty_eq_false_iff, not_or] at hn
    rcases ha with ha | ha | ha
    · exact absurd ha hn.1
    · exact if_pos ha
    · exact absurd ha hn.2

theorem Calm.idle_tryReceive (hl : h.Calm) (hp : h.pipeline? id = some p) :
    p.tryReceive.2.2 = none ∧ p.tryReceive.1.waiting = p.waiting := by
  cases hu : p.unread with
  | nil =>
    rw [Pipeline.tryReceive_nil hu]
    exact ⟨rfl, rfl⟩
  | cons v rest =>
    obtain ⟨p', hread, -, -, hwait, -⟩ := (hl.sound.fits_of hp).settled.tryReceive hu
    rw [hread, hl.waiting_eq hp]
    rw [hl.waiting_eq hp] at hwait
    exact ⟨rfl, Fifo.eq_empty_of_toList hwait⟩

/-- A receive on a calm hub lets nobody in. -/
theorem Calm.tryReceive_eq (hl : h.Calm) (hp : h.pipeline? id = some p) :
    h.tryReceive id = ⟨h.setPipeline id p.tryReceive.1, p.tryReceive.2.1, [], []⟩ ∧
      h.tryReceiveLog id = readLog id p.tryReceive.2.1 none := by
  have hidle := hl.idle_tryReceive hp
  have ha := setPipeline_anchored hl.sound hl.anchored hp hidle.2
  simp only [tryReceive, tryReceiveLog, hp, hidle.1, Option.toList_none, resumeAll, resumeAllLog,
    List.append_nil, settleLog_of_anchored ha, and_true]
  exact settle_of_anchored ha

theorem Calm.tryReceiveLog_of_nil (hl : h.Calm) (hp : h.pipeline? id = some p)
    (hu : p.unread = []) : h.tryReceiveLog id = [] := by
  rw [(hl.tryReceive_eq hp).2, Pipeline.tryReceive_nil hu]
  cases p.buffer.closed <;> rfl

theorem Calm.setPipeline (hl : h.Calm) (hp : h.pipeline? id = some p)
    {p' : Pipeline (Publication π α) ρ α} (hfits : Fits h.closed h.policy p')
    (hw : p'.waiting = ∅) : (h.setPipeline id p').Calm := by
  have hsame : p'.waiting = p.waiting := hw.trans (hl.waiting_eq hp).symm
  exact ⟨⟨hl.sound.setPipeline hp hfits, setPipeline_anchored hl.sound hl.anchored hp hsame⟩,
    (parkedPublications_setPipeline hl.sound hp hsame).trans hl.idle⟩

theorem Calm.tryReceive (hl : h.Calm) (id : SubscriptionId) : (h.tryReceive id).hub.Calm := by
  refine ⟨⟨(h.tryReceive_moves id).turns.sound hl.sound, tryReceive_anchored hl.anchored⟩, ?_⟩
  cases hp : h.pipeline? id with
  | none => simpa only [Hub.tryReceive, hp] using hl.idle
  | some p =>
    rw [(hl.tryReceive_eq hp).1]
    exact (parkedPublications_setPipeline hl.sound hp (hl.idle_tryReceive hp).2).trans hl.idle

theorem Calm.register (hl : h.Calm) (hc : h.closed = false) (n : Nat) :
    (h.register (.new n)).1.Calm := by
  have hidle : (h.register (.new n)).1.parkedPublications = [] := by
    refine parkedPublications_of_waiting fun e he => ?_
    rcases List.mem_append.mp he with he | he
    · exact waiting_of_idle hl.idle he
    · rw [List.mem_singleton.mp he]
      rfl
  refine ⟨⟨hl.sound.register (hc ▸ fits_new n), ?_⟩, hidle⟩
  rcases hl.anchored with ha | ha | ha
  · exact Or.inl ha
  · exact Or.inr (Or.inl ha)
  · exact absurd hl.idle ha

end calm

/-! ## Steps that pass a subscription by -/

/-- An operation leaves a subscription alone. -/
structure Spares (S : SubscriptionId) (h : Hub π ρ α) (log : List (Event π ρ α))
    (h' : Hub π ρ α) : Prop where
  pipeline : h'.pipeline? S = h.pipeline? S
  log : logAt S log = []

section spares

variable {h h' h'' : Hub π ρ α} {id S : SubscriptionId} {log log' : List (Event π ρ α)}

theorem logAt_append (id : SubscriptionId) (log log' : List (Event π ρ α)) :
    logAt id (log ++ log') = logAt id log ++ logAt id log' :=
  List.filter_append ..

theorem Spares.refl (h : Hub π ρ α) : Spares S h [] h := ⟨rfl, rfl⟩

theorem Spares.trans (hs : Spares S h log h') (hs' : Spares S h' log' h'') :
    Spares S h (log ++ log') h'' :=
  ⟨hs'.pipeline.trans hs.pipeline, by rw [logAt_append, hs.log, hs'.log]; rfl⟩

theorem spares_setPipeline {p p' : Pipeline (Publication π α) ρ α}
    (hp : h.pipeline? id = some p) (hne : id ≠ S) (hlog : logAt S log = []) :
    Spares S h log (h.setPipeline id p') :=
  ⟨(pipeline?_setPipeline hp p' S).trans (if_neg hne.symm), hlog⟩

theorem Calm.spares_tryReceive (hl : h.Calm) (hne : id ≠ S) :
    Spares S h (h.tryReceiveLog id) (h.tryReceive id).hub := by
  cases hp : h.pipeline? id with
  | none =>
    simp only [Hub.tryReceive, tryReceiveLog, hp]
    exact .refl h
  | some p =>
    obtain ⟨hread, hlog⟩ := hl.tryReceive_eq hp
    rw [hread, hlog]
    exact spares_setPipeline hp hne ((logAt_readLog S id _ _).trans (if_neg hne))

theorem Calm.spares_receive (hl : h.Calm) (hne : id ≠ S) (caller : ρ) :
    Spares S h (h.tryReceiveLog id) (h.receive id caller).hub := by
  have hread := hl.spares_tryReceive hne
  rw [receive]
  split
  · exact hread
  · rename_i p _ hp
    refine ⟨?_, hread.log⟩
    exact (pipeline?_setPipeline hp _ S).trans ((if_neg hne.symm).trans hread.pipeline)
  · exact hread

theorem Calm.spares_drainUpTo (hne : id ≠ S) (fuel : Nat) (acc : List α)
    {r : Reply π ρ α Unit} (hl : r.hub.Calm) :
    Spares S r.hub (drainUpToLog id fuel r.hub) (drainUpTo id fuel acc r).hub := by
  induction fuel generalizing acc r with
  | zero => exact .refl _
  | succ fuel ih =>
    have hread := hl.spares_tryReceive hne
    simp only [drainUpTo, drainUpToLog]
    cases (r.hub.tryReceive id).result with
    | value v => exact hread.trans (ih (v :: acc) (r := ⟨_, (), _, _⟩) (hl.tryReceive id))
    | empty => exact hread.trans (.refl _)
    | ended => exact hread.trans (.refl _)

/-- A cancel on a calm hub answers the receive that waits, and resumes no publish. -/
theorem Calm.cancel_eq (hl : h.Calm) (hp : h.pipeline? id = some p) (hopen : p.isOpen = true) :
    h.cancel id =
        ⟨h.setPipeline id p.cancelled, (), p.receiver.toList.map (·, none), []⟩ ∧
      h.cancelLog id = .cancelled id :: answers id (p.receiver.toList.map (·, none)) := by
  have hcancel := (hl.sound.fits_of hp).settled.cancel_eq
  have hnone : p.parked = [] := by
    rw [Pipeline.parked, hl.waiting_eq hp]
    rfl
  have ha : (h.setPipeline id p.cancelled).Anchored :=
    setPipeline_anchored hl.sound hl.anchored hp (hl.waiting_eq hp).symm
  constructor
  · simp only [cancel, hp, if_pos hopen, hcancel, hnone, resumeAll]
    exact settle_of_anchored ha
  · simp only [cancelLog, hp, if_pos hopen, hcancel, hnone, resumeAll, resumeAllLog,
      List.append_nil, settleLog_of_anchored ha]

/-- A cancel on a calm hub touches its own subscription only. -/
theorem Calm.spares_cancel (hl : h.Calm) (hne : id ≠ S) :
    Spares S h (h.cancelLog id) (h.cancel id).hub := by
  cases hp : h.pipeline? id with
  | none =>
    simp only [cancel, cancelLog, hp]
    exact .refl h
  | some p =>
    by_cases hopen : p.isOpen = true
    · obtain ⟨heq, hlog⟩ := hl.cancel_eq hp hopen
      rw [heq, hlog]
      exact spares_setPipeline hp hne ((logAt_cons_answers S rfl _).trans (if_neg hne))
    · simp only [cancel, cancelLog, hp, if_neg hopen]
      exact .refl h

theorem Calm.spares_abandon (hl : h.Calm) (hne : id ≠ S) :
    Spares S h (h.abandonLog id) (h.abandon id).hub := by
  refine (hl.spares_cancel hne).trans ⟨?_, by simp [logAt, Event.isAt, hne]⟩
  exact (lookup_forget _ id S).trans (if_neg hne.symm)

theorem spares_subscribe {p : Pipeline (Publication π α) ρ α} (hp : h.pipeline? S = some p)
    (n : Nat) : Spares S h [] (h.subscribe n).1 := by
  refine ⟨?_, rfl⟩
  rw [subscribe]
  split
  · rfl
  · show List.lookup S (h.pipelines ++ _) = h.pipeline? S
    rw [List.lookup_append]
    show (h.pipeline? S).or _ = h.pipeline? S
    rw [hp]
    rfl

end spares

section reading

variable {h : Hub π ρ α} {S : SubscriptionId} {p : Pipeline (Publication π α) ρ α}

theorem isWaiting_eq (hp : h.pipeline? S = some p) : h.isWaiting S = p.receiver.isSome := by
  rw [isWaiting, hp]
  rfl

/-- A receive that finds a value. -/
theorem Calm.read_of_cons (hl : h.Calm) (hp : h.pipeline? S = some p) {v : α} {rest : List α}
    (hu : p.unread = v :: rest) :
    ∃ p', p.tryReceive = (p', .value v, none) ∧ p'.unread = rest ∧ p'.shell = p.shell ∧
      h.tryReceive S = ⟨h.setPipeline S p', .value v, [], []⟩ ∧
      h.tryReceiveLog S = [.received S v] ∧
      (h.setPipeline S p').pipeline? S = some p' := by
  have hfits := hl.sound.fits_of hp
  have hidle : p.waiting = ∅ := hl.waiting_eq hp
  obtain ⟨p', hread, -, hunread, hwait, hshell⟩ := hfits.settled.tryReceive hu
  obtain ⟨heq, hlog⟩ := hl.tryReceive_eq hp
  rw [hidle] at hread hunread hwait
  have hidle' : p'.waiting = p.waiting := (Fifo.eq_empty_of_toList hwait).trans hidle.symm
  rw [hread] at heq hlog
  refine ⟨p', hread, ?_, ?_, heq, hlog, (pipeline?_setPipeline hp p' S).trans (if_pos rfl)⟩
  · exact hunread.trans (List.append_nil rest)
  · rw [hshell, hidle']

theorem Calm.drainUpTo_at (fuel : Nat) (acc : List α) {r : Reply π ρ α Unit}
    (hl : r.hub.Calm) (hp : r.hub.pipeline? S = some p) (hf : p.unread.length < fuel) :
    ∃ p', (drainUpTo S fuel acc r).hub.pipeline? S = some p' ∧
      (drainUpTo S fuel acc r).result = ⟨acc.reverse ++ p.unread, p.buffer.closed⟩ ∧
      p'.unread = [] ∧ p'.shell = p.shell ∧
      drainUpToLog S fuel r.hub = p.unread.map (.received S) := by
  induction fuel generalizing acc r p with
  | zero => exact absurd hf (Nat.not_lt_zero _)
  | succ fuel ih =>
    simp only [drainUpTo, drainUpToLog]
    cases hu : p.unread with
    | nil =>
      have hread := tryReceive_of_nil hl.sound hl.anchored hp hu
      have hlog := hl.tryReceiveLog_of_nil hp hu
      refine ⟨p, ?_, ?_, hu, rfl, ?_⟩
      · rw [hread]
        cases p.buffer.closed <;> exact hp
      · rw [hread, List.append_nil acc.reverse]
        cases p.buffer.closed <;> rfl
      · rw [hread, hlog]
        cases p.buffer.closed <;> rfl
    | cons v rest =>
      obtain ⟨p₁, -, hrest, hshell, hread, hlog, hp₁⟩ := hl.read_of_cons hp hu
      have hl₁ : (r.hub.setPipeline S p₁).Calm := by
        have := hl.tryReceive S
        rwa [hread] at this
      rw [hu, List.length_cons, ← hrest] at hf
      obtain ⟨p', hp', hresult, hempty, hshell', hlog'⟩ := ih (v :: acc)
        (r := ⟨r.hub.setPipeline S p₁, (), r.received ++ [], r.returned ++ []⟩)
        hl₁ hp₁ (Nat.lt_of_succ_lt_succ hf)
      have hclosed := (Pipeline.shell_eq_iff.mp hshell).2.2.1
      simp only [hread, hlog]
      refine ⟨p', hp', ?_, hempty, hshell'.trans hshell, ?_⟩
      · rw [hresult, hrest, hclosed, List.reverse_cons, List.append_assoc]
        rfl
      · rw [hlog', hrest]
        rfl

theorem Calm.backlog_eq (hl : h.Calm) (hp : h.pipeline? S = some p) :
    h.backlog S = p.unread.length := by
  rw [backlog, hp, hl.idle, ← Pipeline.unreadCount_eq]
  rfl

/-- Shutting a calm hub retires a subscription. -/
theorem close_at (hs : h.Sound) (hidle : h.parkedPublications = []) (hp : h.pipeline? S = some p) :
    h.close.hub.pipeline? S = some p.retired ∧
      logAt S h.closeLog = answers S (p.receiver.toList.map (·, none)) := by
  have hfits := hs.fits_of hp
  by_cases hc : h.closed = true
  · rw [close, closeLog, if_pos hc, if_pos hc, hfits.settled.retired_of_closed (hfits.shut hc),
      (hfits.settled.idle_of_closed (hfits.shut hc)).2]
    exact ⟨hp, rfl⟩
  · simp only [close, closeLog, if_neg hc, hs.retireAll_eq, hidle,
      resumeAll, resumeAllLog, List.append_nil]
    refine ⟨?_, ?_⟩
    · show List.lookup S (h.pipelines.map fun e => (e.1, e.2.retired)) = some p.retired
      rw [lookup_map fun _ => Pipeline.retired]
      exact congrArg (Option.map Pipeline.retired) hp
    · rw [logAt_retireAllLog hs, hp]

theorem Calm.disown_at (hl : h.Calm) (hp : h.pipeline? S = some p) :
    h.disown.hub.pipeline? S = some p.retired ∧
      logAt S h.disownLog = answers S (p.receiver.toList.map (·, none)) := by
  set h' : Hub π ρ α := { h with owned := false } with hh'
  have hs : h'.Sound := ⟨hl.sound.nodup, hl.sound.named, hl.sound.fits⟩
  have hlet : ¬ (h'.owned || !h'.parkedPublications.isEmpty) = true := by
    rw [show h'.parkedPublications = [] from hl.idle]
    simp [hh']
  have hdisown : h.disown.hub = h'.close.hub := by
    rw [disown, settle, if_neg hlet]
  have hlog : h.disownLog = h'.closeLog := by
    rw [disownLog, settleLog, if_neg hlet]
  rw [hdisown, hlog]
  exact close_at hs hl.idle hp

end reading

end Switchboard.Hub
