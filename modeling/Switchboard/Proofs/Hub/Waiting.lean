import Mathlib.Data.List.Induction
import Switchboard.Proofs.Hub.Delivery

/-!
# Nobody waits without need

A publish is parked only while its target is full, and a receive only while there is nothing for it.
Whatever ends the need ends the wait in the same step: a read, a cancel, a holder or an owner who
goes away, the close of the hub.

**Fill levels.** A pipeline keeps the capacity it was made with (`Turns.capacity`), and it was made
by a subscribe step of the run (`exists_subscribe`).

**Targets behind a publish.** A read lets in the publish that has waited longest. From then on that
publish has served the target, and it does not come back with the same value (`Past`): it visits no
target twice (`Direct`).

**Main statement** (`no_call_waits_in_vain`). All of this, between any two steps of any run.
-/

namespace Switchboard

theorem Pipeline.capacity_new {π ρ α : Type} (n : Nat) :
    (new n : Pipeline π ρ α).capacity = min (max n 1) maxChannel + 1 + max n 1 := rfl

namespace Hub

variable {π ρ α : Type}

/-! ## Fill levels -/

section capacity

variable {s t : Scene π ρ α} {log : List (Event π ρ α)} {id : SubscriptionId}
  {p p' : Pipeline (Publication π α) ρ α}

theorem Turn.sizes (h : Turn s log t) (hs : s.hub.Sound) (hp : s.hub.pipeline? id = some p)
    (hp' : t.hub.pipeline? id = some p') :
    p'.room = p.room ∧ p'.buffer.capacity = p.buffer.capacity := by
  have ht := h.touch hs id
  rw [hp, hp'] at ht
  rcases ht.outcome (hs.fits_of hp) with ⟨-, -, _, heq, hc⟩ | ⟨-, heq, -⟩ | ⟨-, heq, -⟩
  · obtain rfl := Option.some.inj heq
    exact ⟨hc.room, hc.capacity⟩
  · obtain rfl := Option.some.inj heq
    exact ⟨rfl, rfl⟩
  · cases heq

theorem Turns.sizes (h : Turns s log t) (hs : s.hub.Sound) (hp : s.hub.pipeline? id = some p)
    (hp' : t.hub.pipeline? id = some p') :
    p'.room = p.room ∧ p'.buffer.capacity = p.buffer.capacity := by
  induction h generalizing p with
  | refl _ =>
    rw [hp, Option.some.injEq] at hp'
    rw [hp']
    exact ⟨rfl, rfl⟩
  | @head s m t _ _ hm hrest ih =>
    cases hq : m.hub.pipeline? id with
    | none =>
      have hid : id ≤ m.hub.lastId :=
        Nat.le_trans (hs.named _ (mem_of_pipeline? hp)).2 hm.lastId_le
      rw [(Turns.absent hrest (hm.sound hs) hq hid).2.2] at hp'
      cases hp'
    | some q =>
      obtain ⟨hroom, hbuffer⟩ := hm.sizes hs hp hq
      obtain ⟨hroom', hbuffer'⟩ := ih (hm.sound hs) hq hp'
      exact ⟨hroom'.trans hroom, hbuffer'.trans hbuffer⟩

theorem Turns.capacity (h : Turns s log t) (hs : s.hub.Sound) (hp : s.hub.pipeline? id = some p)
    (hp' : t.hub.pipeline? id = some p') : p'.capacity = p.capacity := by
  obtain ⟨hroom, hbuffer⟩ := h.sizes hs hp hp'
  rw [Pipeline.capacity, Pipeline.capacity, hroom, hbuffer]

end capacity

theorem Run.subscribed_of_new {r : Run α} (hg : r.hub.Good) {s : Step α} {S : SubscriptionId}
    {p : Pipeline (Publication Nat α) Nat α} (hp : (r.next s).hub.pipeline? S = some p)
    (hnew : ¬ S ≤ r.hub.lastId) :
    ∃ n, s = .subscribe n ∧ ((Step.subscribe n).act r.hub r.calls).result = .subscribed S ∧
      p = .new n := by
  have hle : S ≤ (r.next s).hub.lastId := ((s.good hg).sound.named _ (mem_of_pipeline? hp)).2
  by_cases hs : ∃ n, s = .subscribe n
  · obtain ⟨n, rfl⟩ := hs
    by_cases hopen : r.hub.owned = true ∧ r.hub.closed = false
    · obtain ⟨ho, hc⟩ := hopen
      have hid : S = r.hub.lastId + 1 := by
        simp only [Run.next, Step.act, byOwner, ho, if_true, Hub.subscribe, hc, Bool.false_eq_true,
          if_false, register] at hle
        exact Nat.le_antisymm hle (Nat.not_le.mp hnew)
      have hresult : ((Step.subscribe n).act r.hub r.calls).result = .subscribed S := by
        simp only [Step.act, byOwner, ho, if_true, Hub.subscribe, hc, Bool.false_eq_true, if_false,
          register, hid]
      have hmade := (Run.pipeline?_of_subscribe hg.sound hc hresult).2
      rw [hp, Option.some.injEq] at hmade
      exact ⟨n, rfl, hresult, hmade⟩
    · have hsame : (r.next (.subscribe n)).hub.lastId = r.hub.lastId := by
        simp only [Run.next, Step.act, byOwner, Hub.subscribe]
        by_cases ho : r.hub.owned = true
        · rw [if_pos ho, if_pos (by simpa [ho] using hopen)]
        · rw [if_neg ho]
      exact absurd (hsame ▸ hle) hnew
  · have hsame : (r.next s).hub.lastId = r.hub.lastId := Step.lastId_of_ne fun n hn => hs ⟨n, hn⟩
    exact absurd (hsame ▸ hle) hnew

/-- Every pipeline was made by a subscribe step, and has the capacity asked for there. -/
theorem exists_subscribe (label : String) (policy : Policy) (steps : List (Step α))
    {S : SubscriptionId} {p : Pipeline (Publication Nat α) Nat α}
    (hp : (run label policy steps).hub.pipeline? S = some p) :
    ∃ before n after, steps = before ++ .subscribe n :: after ∧
      ((Step.subscribe n).act (run label policy before).hub before.length).result =
        .subscribed S ∧
      p.capacity = min (max n 1) maxChannel + 1 + max n 1 := by
  induction steps using List.reverseRecOn generalizing p with
  | nil => cases hp
  | append_singleton steps s ih =>
    have hgood := run_good label policy steps
    have hturns : Turns ⟨(run label policy steps).hub, []⟩ _
        ⟨((run label policy steps).next s).hub, []⟩ := s.turns hgood
    rw [run_append] at hp
    by_cases hold : S ≤ (run label policy steps).hub.lastId
    · cases hq : (run label policy steps).hub.pipeline? S with
      | none => exact absurd (hp.symm.trans (hturns.absent hgood.sound hq hold).2.2) (by simp)
      | some q =>
        obtain ⟨before, n, after, hsteps, hresult, hcap⟩ := ih hq
        refine ⟨before, n, after ++ [s], by rw [hsteps]; simp, hresult, ?_⟩
        exact (hturns.capacity hgood.sound hq hp).trans hcap
    · obtain ⟨n, rfl, hresult, rfl⟩ := Run.subscribed_of_new hgood hp hold
      exact ⟨steps, n, [], rfl, run_calls label policy steps ▸ hresult, Pipeline.capacity_new n⟩

/-! ## What a parked call waits for -/

section parked

variable {h : Hub π ρ α} {S : SubscriptionId}

/-- A publish is parked on a registered subscription of an open hub, which is full. -/
theorem Sound.full_of_parked (hs : h.Sound) (hq : h.parkedOn S ≠ []) :
    ∃ p, h.pipeline? S = some p ∧ S ∈ h.registered ∧ h.closed = false ∧
      (h.unreadOf S).length = p.capacity := by
  obtain ⟨q, hq⟩ := List.exists_mem_of_ne_nil _ hq
  obtain ⟨p, hp, hq⟩ := mem_parkedOn.mp hq
  have hfits := hs.fits_of hp
  have hw : p.waiting.toList ≠ [] := fun hnil => by
    rw [Pipeline.parked, hnil] at hq
    cases hq
  obtain ⟨hopen, hfull⟩ := hfits.settled.full_of_waiting hw
  refine ⟨p, hp, hs.mem_registered.mpr ⟨p, hp, hopen⟩, ?_, by rw [unreadOf_some hp, hfull]⟩
  by_contra hc
  have hclosed := hfits.shut (by simpa using hc)
  rw [(hfits.settled.waiting_full hw).1] at hclosed
  cases hclosed

/-- A receive waits on a registered subscription of an open hub, which is empty. -/
theorem Sound.empty_of_waiting (hs : h.Sound) (hw : h.isWaiting S = true) :
    S ∈ h.registered ∧ h.closed = false ∧
      h.channelOf S = [] ∧ h.handOf S = [] ∧ h.queueOf S = [] := by
  obtain ⟨p, hp, hrec⟩ : ∃ p, h.pipeline? S = some p ∧ p.receiver.isSome = true := by
    simpa [isWaiting, Option.any_eq_true] using hw
  have hfits := hs.fits_of hp
  have hne : p.receiver ≠ none := Option.ne_none_iff_isSome.mpr hrec
  obtain ⟨hopen, -⟩ := hfits.settled.receiver_idle hne
  have hunread : h.unreadOf S = [] := by
    rw [unreadOf_some hp]
    exact hfits.settled.unread_of_receiver hne
  rw [unreadOf_eq, List.append_eq_nil_iff, List.append_eq_nil_iff, and_assoc] at hunread
  refine ⟨hs.mem_registered.mpr ⟨p, hp, by rw [Pipeline.isOpen, hopen]; rfl⟩, ?_, hunread⟩
  by_contra hc
  have hclosed := hfits.shut (by simpa using hc)
  rw [hopen] at hclosed
  cases hclosed

theorem Sound.idle_of_not_registered (hs : h.Sound) (hreg : ¬ h.Registered S) :
    S ∉ h.registered ∧ h.parkedOn S = [] ∧ h.isWaiting S = false := by
  have hmem : S ∉ h.registered := fun hmem => hreg (hs.mem_registered.mp hmem)
  refine ⟨hmem, ?_, ?_⟩
  · by_contra hne
    obtain ⟨_, -, h', -⟩ := hs.full_of_parked hne
    exact hmem h'
  · by_contra hw
    exact hmem (hs.empty_of_waiting (by simpa using hw)).1

theorem Sound.idle_of_closed (hs : h.Sound) (hc : h.closed = true) :
    h.parkedPublications = [] ∧ ∀ S, h.isWaiting S = false := by
  constructor
  · by_contra hne
    obtain ⟨q, hq⟩ := List.exists_mem_of_ne_nil _ hne
    obtain ⟨S, hq⟩ := hs.mem_parkedPublications.mp hq
    obtain ⟨_, -, -, hopen, -⟩ := hs.full_of_parked (List.ne_nil_of_mem hq)
    rw [hc] at hopen
    cases hopen
  · intro S
    by_contra hw
    have hopen := (hs.empty_of_waiting (by simpa using hw)).2.1
    rw [hc] at hopen
    cases hopen

end parked

/-! ## Targets behind a publish -/

/-- No publish under way visits a target twice. -/
def Direct (s : Scene π ρ α) : Prop := ∀ q togo, UnderWay s q togo → togo.Nodup

/-- Of the publishes of a caller, those with `k` values to come do not visit a target any more, and
none has more than `k` to come. -/
def Past (caller : π) (id : SubscriptionId) (k : Nat) (s : Scene π ρ α) : Prop :=
  ∀ q togo, UnderWay s q togo → q.caller = caller →
    q.later.length < k ∨ q.later.length = k ∧ id ∉ togo

section past

variable {s t : Scene π ρ α} {log : List (Event π ρ α)} {caller : π} {id : SubscriptionId} {k : Nat}

theorem Turn.direct (h : Turn s log t) (hs : s.hub.Sound) (hd : Direct s) : Direct t := by
  intro x togo hx
  rcases h.proceeds hs hx with ⟨-, hn⟩ | ⟨q, togo₀, hq, -, ⟨-, -, hsub⟩ | ⟨-, hn⟩⟩
  · exact hn
  · exact (hd q togo₀ hq).sublist hsub
  · exact hn

theorem Turns.direct (h : Turns s log t) (hs : s.hub.Sound) (hd : Direct s) : Direct t := by
  induction h with
  | refl _ => exact hd
  | head hm _ ih => exact ih (hm.sound hs) (hm.direct hs hd)

theorem Turn.past (h : Turn s log t) (hs : s.hub.Sound) (hc : caller ∉ callsIn log)
    (hp : Past caller id k s) : Past caller id k t := by
  intro x togo hx hcaller
  rcases h.proceeds hs hx with ⟨hmem, -⟩ | ⟨q, togo₀, hq, hqc, hway⟩
  · exact absurd (hcaller ▸ hmem) hc
  · have hbefore := hp q togo₀ hq (hqc.trans hcaller)
    rcases hway with ⟨-, hl, hsub⟩ | ⟨hlt, -⟩
    · rw [hl]
      exact hbefore.imp (fun hlt => hlt) fun hb => ⟨hb.1, fun hmem => hb.2 (hsub.subset hmem)⟩
    · exact Or.inl (hbefore.elim (Nat.lt_trans hlt) fun hb => hb.1 ▸ hlt)

/-- **What a publish has behind it stays behind it.** -/
theorem Turns.past (h : Turns s log t) (hs : s.hub.Sound) (hc : caller ∉ callsIn log)
    (hp : Past caller id k s) : Past caller id k t := by
  induction h with
  | refl _ => exact hp
  | head hm _ ih =>
    rw [callsIn_append, List.mem_append, not_or] at hc
    exact ih (hm.sound hs) hc.2 (hm.past hs hc.1 hp)

end past

/-! ## Reading where a publish is parked -/

section reading

variable {h : Hub π ρ α} {S : SubscriptionId} {q : Publication π α} {qs : List (Publication π α)}

/-- A read lets in the publish that has waited longest, which then goes on. -/
theorem Sound.tryReceive_lets_in (hs : h.Sound) (hq : h.parkedOn S = q :: qs) :
    ∃ p' v log, (h.tryReceive S).result = .value v ∧
      Move ⟨h, []⟩ (readLog S (.value v) (some q)) ⟨h.setPipeline S p', [q.arrived true]⟩ ∧
      Moves ⟨h.setPipeline S p', [q.arrived true]⟩ log ⟨(h.tryReceive S).hub, []⟩ := by
  obtain ⟨p, hp, -, -, hfull⟩ := hs.full_of_parked (hq ▸ List.cons_ne_nil q qs)
  rw [unreadOf_some hp] at hfull
  rw [parkedOn_some hp] at hq
  cases hu : p.unread with
  | nil =>
    rw [hu, List.length_nil, Pipeline.capacity] at hfull
    omega
  | cons v rest =>
    obtain ⟨p', hread, -⟩ := (hs.fits_of hp).settled.tryReceive hu
    have hfirst : p.waiting.toList.head?.map (·.1) = some q := by
      rw [← List.head?_map, show p.waiting.toList.map (·.1) = q :: qs from hq]
      rfl
    rw [hfirst] at hread
    set let_in : Reply π ρ α (Reception α) := ⟨h.setPipeline S p', .value v, [], []⟩
    have htry : h.tryReceive S = settle (resumeAll true [q] let_in) := by
      simp only [tryReceive, hp, hread]
      rfl
    have hmoves := (resumeAll_moves true [q] let_in).trans (settle_moves _)
    rw [← htry] at hmoves
    exact ⟨p', v, _, tryReceive_result_of_cons hs hp hu, .read hp hread, hmoves⟩

theorem Move.past (hs : h.Sound) (hd : Direct (⟨h, []⟩ : Scene π ρ α))
    (hn : (callers (⟨h, []⟩ : Scene π ρ α)).Nodup) (hq : q ∈ h.parkedOn S)
    {h' : Hub π ρ α} {v : α}
    (hmove : Move ⟨h, []⟩ (readLog S (.value v) (some q)) ⟨h', [q.arrived true]⟩) :
    Past q.caller S q.later.length (⟨h', [q.arrived true]⟩ : Scene π ρ α) := by
  -- No other publish of that caller is under way, neither before the read nor after it.
  have hn' : (callers (⟨h', [q.arrived true]⟩ : Scene π ρ α)).Nodup := by
    have hperm := (Turn.move hmove).callers_perm hs
    have hcalls : callsIn (readLog S (.value v) (some q) : List (Event π ρ α)) = [] := rfl
    rw [returnsIn_readLog, hcalls, List.map_nil, List.append_nil, List.append_nil] at hperm
    exact hperm.nodup_iff.mp hn
  intro x togo hx hcaller
  cases hx with
  | moving hx =>
    obtain rfl := List.mem_singleton.mp hx
    exact Or.inr ⟨rfl, (List.nodup_cons.mp (hd q _ (.parked hq))).1⟩
  | parked hx =>
    refine absurd ?_ (List.nodup_cons.mp hn').1
    exact List.mem_map.mpr ⟨x, mem_parkedPublications_of_parkedOn hx, hcaller⟩

end reading

theorem Step.lets_in {h : Hub Nat Nat α} (hg : h.Good) (call : Nat) {S : SubscriptionId}
    {st : Step α} (hst : st ∈ [.receive S, .tryReceive S, .drain S])
    {q : Publication Nat α} {qs : List (Publication Nat α)} (hq : h.parkedOn S = q :: qs) :
    ∃ p' v log,
      Move ⟨h, []⟩ (readLog S (.value v) (some q)) ⟨h.setPipeline S p', [q.arrived true]⟩ ∧
      Moves ⟨h.setPipeline S p', [q.arrived true]⟩ log ⟨(st.act h call).hub, []⟩ := by
  obtain ⟨p', v, log, hresult, hmove, hmoves⟩ := hg.sound.tryReceive_lets_in hq
  have hfree : h.isWaiting S = false := by
    by_contra hw
    obtain ⟨-, -, hempty⟩ := hg.sound.empty_of_waiting (by simpa using hw)
    obtain ⟨p, hp, -, -, hfull⟩ := hg.sound.full_of_parked (hq ▸ List.cons_ne_nil q qs)
    rw [unreadOf_eq, hempty.1, hempty.2.1, hempty.2.2, Pipeline.capacity] at hfull
    simp only [List.append_nil, List.length_nil] at hfull
    omega
  simp only [List.mem_cons, List.not_mem_nil, or_false] at hst
  rcases hst with rfl | rfl | rfl
  · refine ⟨p', v, log, hmove, ?_⟩
    simpa only [Step.act, unlessBusy, hfree, Bool.false_eq_true, if_false, Reply.map,
      Hub.receive, hresult] using hmoves
  · refine ⟨p', v, log, hmove, ?_⟩
    simpa only [Step.act, unlessBusy, hfree, Bool.false_eq_true, if_false, Reply.map] using hmoves
  · set first : Reply Nat Nat α Unit := ⟨(h.tryReceive S).hub, (), [] ++ (h.tryReceive S).received,
      [] ++ (h.tryReceive S).returned⟩
    have hact : ((Step.drain S).act h call).hub = (drainUpTo S (h.backlog S) [v] first).hub := by
      simp only [Step.act, unlessBusy, hfree, Bool.false_eq_true, if_false, Reply.map, Hub.drain,
        drainUpTo, hresult]
      rfl
    rw [hact]
    exact ⟨p', v, _, hmove, hmoves.trans (drainUpTo_moves S (h.backlog S) [v] first)⟩

/-! ## Runs -/

section runs

variable (label : String) (policy : Policy) (steps : List (Step α))

theorem run_callers :
    (callers ⟨(run label policy steps).hub, []⟩).Nodup ∧
      ∀ c ∈ callers ⟨(run label policy steps).hub, []⟩, c < steps.length := by
  obtain ⟨-, hold, hnodup⟩ := run_turns label policy steps
  have hperm := run_callers_perm label policy steps
  exact ⟨(List.nodup_append.mp (hperm.nodup_iff.mp hnodup)).1,
    fun c hc => hold c (hperm.mem_iff.mpr (List.mem_append_left _ hc))⟩

theorem run_direct : Direct ⟨(run label policy steps).hub, []⟩ :=
  (run_turns label policy steps).1.direct (sound_new label policy) fun q togo hq => by
    cases hq with
    | moving hq => cases hq
    | parked hq => cases hq

theorem past_of_read (label : String) (policy : Policy) (before : List (Step α))
    {S : SubscriptionId} {st : Step α} (hst : st ∈ [.receive S, .tryReceive S, .drain S])
    {q : Publication Nat α} {qs : List (Publication Nat α)}
    (hq : (run label policy before).hub.parkedOn S = q :: qs) (after : List (Step α)) :
    Past q.caller S q.later.length ⟨(run label policy (before ++ st :: after)).hub, []⟩ := by
  obtain ⟨hn, hold⟩ := run_callers label policy before
  have hgood := run_good label policy before
  have hmem : q ∈ (run label policy before).hub.parkedOn S := hq ▸ List.mem_cons_self ..
  set r := run label policy before with hr
  obtain ⟨p', v, log, hmove, hmoves⟩ := Step.lets_in hgood r.calls hst hq
  have hpast := hmove.past hgood.sound (run_direct label policy before) hn hmem
  -- The caller called before these steps, and what is called from here on has other numbers.
  obtain ⟨-, later, -, hlater, hcalls, -⟩ := Run.extend_turns (r := r.next st) (st.good hgood) after
  have hfresh : q.caller ∉ callsIn (log ++ later) := by
    rw [callsIn_append, hmoves.callsIn]
    intro hmem'
    have hlt := hold q.caller (List.mem_map.mpr ⟨q, (UnderWay.parked hmem).mem_flight, rfl⟩)
    have hle := (hcalls q.caller hmem').1
    simp only [Run.next, hr, run_calls] at hle
    omega
  rw [run_append, Run.extend_cons, ← hr]
  exact Turns.past (hmoves.turns.trans hlater) ((Turn.move hmove).sound hgood.sound) hfresh hpast

end runs

/-- **No call waits in vain.** Between two steps of a run, a publish is parked only on a registered
subscription of an open hub that holds as many unread values as it can, `b` in its buffer, one in
the hand and at most `b` in its channel, where `b` is the buffer asked for. A receive waits only on
a registered subscription of an open hub of which the channel, the hand and the buffer are empty.
So nobody waits in a closed hub, and a hub whose owner has let go is closed unless a publish is
under way in it. After a cancel, or after the holder went away, nobody waits on that subscription;
after a read the publish that had waited longest does not wait there any more, though its call may
come back with a later value. -/
theorem no_call_waits_in_vain (label : String) (policy : Policy) (steps : List (Step α)) :
    let r := run label policy steps
    (∀ q, q ∈ r.hub.parkedPublications ↔ ∃ S, q ∈ r.hub.parkedOn S) ∧
      (∀ S, r.hub.parkedOn S ≠ [] →
        S ∈ r.hub.registered ∧ r.hub.closed = false ∧
          ∃ before n after, steps = before ++ .subscribe n :: after ∧
            ((Step.subscribe n).act (run label policy before).hub before.length).result =
              .subscribed S ∧
            (r.hub.unreadOf S).length = min (max n 1) 65536 + 1 + max n 1) ∧
      (∀ S, r.hub.isWaiting S = true →
        S ∈ r.hub.registered ∧ r.hub.closed = false ∧
          r.hub.channelOf S = [] ∧ r.hub.handOf S = [] ∧ r.hub.queueOf S = []) ∧
      (r.hub.closed = true → r.hub.parkedPublications = [] ∧ ∀ S, r.hub.isWaiting S = false) ∧
      (r.hub.owned = false → r.hub.closed = true ∨ r.hub.parkedPublications ≠ []) ∧
      ∀ before st after, steps = before ++ st :: after →
        let h := (run label policy before).hub
        (∀ S, S ≤ h.lastId → st = .cancel S ∨ st = .abandon S ∧ h.isWaiting S = false →
          S ∉ r.hub.registered ∧ r.hub.parkedOn S = [] ∧ r.hub.isWaiting S = false) ∧
        ∀ S q qs, h.parkedOn S = q :: qs → st ∈ [.receive S, .tryReceive S, .drain S] →
          ∀ q' ∈ r.hub.parkedOn S, q'.caller = q.caller → q'.later.length < q.later.length := by
  intro r
  have hgood : r.hub.Good := run_good label policy steps
  refine ⟨fun q => hgood.sound.mem_parkedPublications, fun S hne => ?_,
    fun S hw => hgood.sound.empty_of_waiting hw, hgood.sound.idle_of_closed, fun ho => ?_, ?_⟩
  · obtain ⟨p, hp, hreg, hopen, hfull⟩ := hgood.sound.full_of_parked hne
    obtain ⟨before, n, after, hsteps, hresult, hcap⟩ := exists_subscribe label policy steps hp
    exact ⟨hreg, hopen, before, n, after, hsteps, hresult, hfull.trans hcap⟩
  · exact hgood.anchored.resolve_left (by rw [ho]; exact Bool.false_ne_true)
  · intro before st after hsteps h
    have hr : r = ((run label policy before).next st).extend after := by
      rw [← Run.extend_cons, ← run_append, ← hsteps]
    have hbefore := run_good label policy before
    refine ⟨fun S hS hleave => ?_, fun S q qs hq hst q' hq' hcaller => ?_⟩
    · -- Neither a cancel nor a holder who goes away leaves the subscription registered.
      have hgone : ¬ ((run label policy before).next st).hub.Registered S := by
        rcases hleave with rfl | ⟨rfl, hfree⟩
        · exact cancel_not_registered hbefore.sound
        · simp only [Run.next, Step.act, unlessBusy]
          rw [if_neg (by rw [hfree]; exact Bool.false_ne_true)]
          refine not_registered_of_none ?_
          exact (lookup_forget _ S S).trans (if_pos rfl)
      obtain ⟨-, log, -, hlater, -⟩ :=
        Run.extend_turns (r := (run label policy before).next st) (st.good hbefore) after
      have hlast : S ≤ ((run label policy before).next st).hub.lastId :=
        Nat.le_trans hS (st.turns hbefore).lastId_le
      refine hgood.sound.idle_of_not_registered ?_
      rw [hr]
      exact hlater.not_registered (st.good hbefore).sound hlast hgone
    · have hpast := past_of_read label policy before hst hq after
      rw [← hsteps] at hpast
      exact (hpast q' _ (.parked hq') hcaller).resolve_right fun hb =>
        hb.2 (List.mem_cons_self ..)

/-- Three values fill a subscription with a buffer of one, and two publishes wait. A read lets the
first of them in, and a cancel the other. -/
theorem no_call_waits_in_vain_let_in :
    let before : List (Step Nat) := [.subscribe 1, .publish [] 7, .publish [] 8, .publish [] 9,
      .publish [] 10, .publish [] 11]
    let r := run "hub" .reliable before
    let r' := run "hub" .reliable (before ++ [.receive 1])
    let r'' := run "hub" .reliable (before ++ [.cancel 1])
    (r.hub.parkedOn 1).map (·.caller) = [4, 5] ∧ 1 ∈ r.hub.registered ∧
      (∀ q ∈ r'.hub.parkedOn 1, q.caller ≠ 4) ∧ r''.hub.parkedOn 1 = [] := by
  intro before r r' r''
  have hne : r.hub.parkedOn 1 ≠ [] := by
    intro h
    have : (r.hub.parkedOn 1).map (·.caller) = [4, 5] := by rfl
    rw [h] at this
    cases this
  obtain ⟨q, qs, hq⟩ := List.exists_cons_of_ne_nil hne
  have hfirst : q.caller = 4 ∧ q.later = [] := by
    have : (r.hub.parkedOn 1).map (fun q => (q.caller, q.later)) = [(4, []), (5, [])] := by rfl
    rw [hq, List.map_cons, List.cons.injEq, Prod.mk.injEq] at this
    exact this.1
  have hfull := (no_call_waits_in_vain "hub" .reliable before).2.1 1 hne
  have hread := ((no_call_waits_in_vain "hub" .reliable (before ++ [.receive 1])).2.2.2.2.2
    before (.receive 1) [] rfl).2 1 q qs hq (List.mem_cons_self ..)
  have hcancel := ((no_call_waits_in_vain "hub" .reliable (before ++ [.cancel 1])).2.2.2.2.2
    before (.cancel 1) [] rfl).1 1 (by decide) (Or.inl rfl)
  refine ⟨by rfl, hfull.1, fun q' hq' hcaller => ?_, hcancel.2.1⟩
  have hlt := hread q' hq' (hcaller.trans hfirst.1.symm)
  rw [hfirst.2] at hlt
  exact absurd hlt (Nat.not_lt_zero _)

end Hub

end Switchboard
