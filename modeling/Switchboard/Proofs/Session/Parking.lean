import Switchboard.Proofs.Hub.Lossy
import Switchboard.Proofs.Session.Attendance
import Switchboard.Proofs.Session.Transitions

/-!
# Only messages park a lifecycle call

The hub of the current cycle is open, and nothing has been published in it. So a cause finds room in
every buffer, and a lifecycle call can wait only for room for its message. By then its transition is
complete.

**Unused** (`Unused`). So it is with the hub of every cycle until a transition ends the cycle.

**What stays** (`Steady`). The policy of the messages does, and the cycles are numbered without gaps,
so every hub that was replaced is known by its number.

**Main statement** (`only_messages_park`). What holds of the hubs, the observers and the lifecycle
calls between any two steps of a run.
-/

namespace Switchboard

namespace Hub

variable {π ρ α : Type} {h : Hub π ρ α}

theorem publish_lossy (hs : h.Sound) (hpol : h.policy = .lossy) (caller : π) (v : α) :
    ∃ n, (h.publish caller v).result = .returned n := by
  have hturns := h.publishAll_turns caller [] [v]
  have hnone : (h.publishAll caller [] [v]).hub.parkedPublications = [] :=
    (hturns.sound hs).parkedPublications_eq (hturns.policy.trans hpol)
  have hcalls := hturns.callers_perm hs
  rw [callsIn_publishAllLog, returnsIn_publishAllLog] at hcalls
  unfold publish
  cases hresult : (h.publishAll caller [] [v]).result with
  | returned n => exact ⟨n, rfl⟩
  | parked =>
    rw [hresult] at hcalls
    have hmem := hcalls.mem_iff.mp (List.mem_append_right _ (List.mem_singleton_self caller))
    rw [callers, flight, hnone] at hmem
    cases hmem

end Hub

namespace Session

/-! ## Unused hubs -/

/-- A hub for causes that is open and on which nothing has been published, so that a publish does not
wait, whoever has subscribed. -/
structure Unused (h : Hub Unit CauseReader Cause) : Prop where
  isOpen : h.closed = false
  unpublished : h.published = 0
  returns : ∀ cause, (h.publish () cause).result = .returned h.subscriberCount

theorem Orderly.unused {owner : Nat → Option CauseHandle} {handles : List CauseHandle} {s : Session}
    (ho : Orderly owner handles s.trail) (hu : Unspent s.trail) (hrel : s.released = false) :
    Unused s.cycle.disconnects := by
  have hk := trail_hub?_number (s := s)
  have hc := (ho.closed _ _ hk).mpr ⟨rfl, hrel⟩
  refine ⟨hc, hu.published, fun cause => ?_⟩
  exact ((ho.calm _ _ hk).publish_fresh hc
    (fun id p hp => ho.fresh id p ((Trail.slot_of_hub hk id).trans hp)) () cause).2.2

/-- The hub of the cycle that a transition ends is unused until then. -/
theorem Run.AtRest.unused_ended {r : Run} (hr : r.AtRest) (hu : Unspent r.session.trail) {st : Step}
    {τ : Transition} (hτ : τ ∈ r.log st) : Unused τ.ended.disconnects := by
  have hv := hr.valid.append [st]
  obtain ⟨log, t, ready, hdeeds, ho⟩ := (hr.deeds st).exists_occurs hτ
  have hv' := hdeeds.valid hv
  rw [ho.ended]
  exact hv'.orderly.unused ((hdeeds.turns hv).unspent hv hu) (ho.not_released hv')

/-! ## Calls that park -/

/-- A lifecycle call that does not come back has been parked by its publish. -/
theorem eq_false_of_parked {β : Type} {b : Bool} {v : β}
    (h : (if b then Outcome.returned v else .parked) = .parked) : b = false := by
  cases b with
  | false => rfl
  | true => cases h

section parked

variable {s : Session} {call : Nat} {options : Options}

theorem connect_parked (h : (s.connect call options).2 = .parked) :
    ∃ τ ∈ s.connectLog call options, τ.returned = false := by
  rcases connect_cases s call options with
    ⟨_, -, hc, -⟩ | ⟨-, -, hc, -⟩ | ⟨-, -, -, hc, -⟩ | ⟨-, -, -, hc, hlog⟩
  all_goals rw [hc] at h
  · cases h
  · cases h
  · cases h
  · exact ⟨_, hlog ▸ List.mem_cons_self, eq_false_of_parked h⟩

theorem connectAll_parked {n : Nat} (h : .parked ∈ (s.connectAll call options n).2) :
    ∃ τ ∈ s.connectAllLog call options n, τ.returned = false := by
  induction n generalizing s with
  | zero => cases h
  | succ n ih =>
    rw [connectAll_succ] at h
    rw [connectAllLog]
    rcases List.mem_cons.mp h with h | h
    · obtain ⟨τ, hτ, hreturned⟩ := connect_parked h.symm
      exact ⟨τ, List.mem_append_left _ hτ, hreturned⟩
    · obtain ⟨τ, hτ, hreturned⟩ := ih h
      exact ⟨τ, List.mem_append_right _ hτ, hreturned⟩

theorem disconnect_parked (h : (s.disconnect call).2 = .parked) :
    ∃ τ ∈ s.disconnectLog call, τ.returned = false := by
  rcases disconnect_cases s call with ⟨-, hd, -⟩ | ⟨a, fault, -, -, -, hd, hlog⟩
  all_goals rw [hd] at h
  · cases h
  · exact ⟨_, hlog ▸ List.mem_cons_self, eq_false_of_parked h⟩

/-- A connect that is parked leaves the state as its transition did. -/
theorem connect_of_parked {owner : Nat → Option CauseHandle} {t : Scene} (hv : Valid owner t)
    (hq : Quiet t.session) (hh : t.session.hasHandle = true)
    (hparked : (t.session.connect call options).2 = .parked) :
    ∃ τ, t.session.connectLog call options = [τ] ∧ τ.returned = false ∧
      (t.session.connect call options).1 = τ.after := by
  rcases connect_outcome hv hq hh call options with
    ⟨_, -, hc, -⟩ | ⟨-, -, hc, -⟩ | ⟨-, -, -, hc, -⟩ | ⟨-, -, -, hc, hlog⟩
  all_goals rw [hc] at hparked ⊢
  · cases hparked
  · cases hparked
  · cases hparked
  · exact ⟨_, hlog, eq_false_of_parked hparked, rfl⟩

theorem disconnect_of_parked {owner : Nat → Option CauseHandle} {t : Scene} (hv : Valid owner t)
    (hh : t.session.hasHandle = true) (hparked : (t.session.disconnect call).2 = .parked) :
    ∃ τ, t.session.disconnectLog call = [τ] ∧ τ.returned = false ∧ (t.session.disconnect call).1 =
      { τ.after with watches := τ.after.watches.filter (!isReady ·) } := by
  rcases disconnect_outcome hv hh call with ⟨-, hd, -⟩ | ⟨x, fault, -, -, -, hd, hlog⟩
  all_goals rw [hd] at hparked ⊢
  · cases hparked
  · exact ⟨_, hlog, eq_false_of_parked hparked, rfl⟩

end parked

/-! ## What stays -/

/-- The policy of the messages, and the numbers of the cycles. -/
structure Steady (kept : Policy) (b : Books) : Prop where
  policy : b.messages.policy = kept
  earlier : b.earlier = (List.range b.number).reverse

section steady

variable {step : Step} {call : Nat} {owner : Nat → Option CauseHandle} {t t' : Scene}
  {log : List Transition} {kept : Policy} {b : Books}

theorem Handled.policy {h hub : Hub LifecycleCall Nat Message}
    {received : List (Nat × Option Message)} {returned : List (LifecycleCall × Nat)}
    (hh : Handled h hub received returned) (hg : h.Good) : hub.policy = h.policy := by
  cases hh with
  | subscribe n => exact (h.subscribe_turns n).policy
  | tryReceive id => exact (h.tryReceive_moves id).turns.policy
  | receive id call => exact (Hub.receive_turns hg.sound hg.anchored call).policy
  | cancel id => exact (h.cancel_turns id).policy
  | abandon id => exact (Hub.abandon_turns hg.sound).policy

theorem Steady.turn (hs : Steady kept b) (installed : Option Serial) :
    Steady kept (b.turn installed) := by
  refine ⟨hs.policy, ?_⟩
  show b.number :: b.earlier = _
  rw [hs.earlier]
  show _ = (List.range (b.number + 1)).reverse
  rw [List.range_succ, List.reverse_append]
  rfl

theorem Steady.announce (hs : Steady kept b) (who : LifecycleCall) (m : Message) :
    Steady kept (b.announce who m) :=
  ⟨(b.messages.publishAll_turns who [] [m]).policy.trans hs.policy, hs.earlier⟩

theorem Steady.release (hs : Steady kept b) : Steady kept b.release := by
  have hpolicy : b.messages.close.hub.policy = kept :=
    b.messages.close_moves.turns.policy.trans hs.policy
  unfold Books.release
  cases b.installed <;> exact ⟨hpolicy, hs.earlier⟩

theorem Deed.steady (h : Deed step call owner t log t') (hv : Valid owner t)
    (hs : Steady kept t.session.books) : Steady kept t'.session.books := by
  cases h with
  | still _ hbooks _ =>
    rw [hbooks]
    exact hs
  | refuse _ => exact ⟨hs.policy, hs.earlier⟩
  | fail _ hfail =>
    rw [establish_of_fail hfail]
    exact ⟨hs.policy, hs.earlier⟩
  | reject _ hok _ =>
    show Steady kept (Session.reject _ _).books
    rw [books_reject, books_establish hok]
    exact ⟨hs.policy, hs.earlier⟩
  | turned ho =>
    obtain ⟨hafter, hbooks⟩ := ho.books
    show Steady kept (Transition.after _).books
    rw [hafter]
    refine Steady.announce ?_ _ _
    obtain ⟨x, -, -, hturned⟩ | ⟨x, fault, cause, -, -, -, hturned⟩ := hbooks
    · rw [hturned]
      exact ⟨(hs.turn (some x)).policy, (hs.turn (some x)).earlier⟩
    · rw [hturned]
      exact ⟨(hs.turn none).policy, (hs.turn none).earlier⟩
  | release _ _ _ =>
    show Steady kept t.session.release.books
    rw [books_release]
    exact hs.release
  | mail _ hh =>
    show Steady kept (t.session.passOn _ _ _).books
    rw [books_passOn]
    exact ⟨(hh.policy hv.accounted.good).trans hs.policy, hs.earlier⟩

theorem Deeds.steady (h : Deeds step call owner t log t') (hv : Valid owner t)
    (hs : Steady kept t.session.books) : Steady kept t'.session.books := by
  induction h with
  | refl _ => exact hs
  | head hdeed _ ih => exact ih ((hdeed.turns hv).valid hv) (hdeed.steady hv hs)

/-- On a lossy hub every announcement returns. -/
theorem Occurs.returned {τ : Transition} {ready : List Watch} (ho : Occurs step call t τ ready)
    (hv : Valid owner t) (hpol : t.session.messages.policy = .lossy) : τ.returned = true := by
  have hsound : t.session.messages.Sound := hv.accounted.good.sound
  obtain ⟨n, hresult⟩ := Hub.publish_lossy hsound hpol τ.caller τ.message
  rw [← ho.apart.1] at hresult
  obtain ⟨s', hannounce, -⟩ := announce_of_returned hresult
  exact congrArg Prod.snd hannounce

end steady

/-! ## Between two steps -/

theorem run_steady (settings : Settings) (players : List Player) (catalog : List Packet.Entry)
    (steps : List Step) :
    Steady settings.messagePolicy (run settings players catalog steps).session.books := by
  induction steps using List.reverseRecOn with
  | nil => exact ⟨rfl, rfl⟩
  | append_singleton steps st ih =>
    have hr := run_atRest settings players catalog steps
    have hs := (hr.deeds st).steady (hr.valid.append [st]) ih
    rw [run_append]
    exact ⟨hs.policy, hs.earlier⟩

theorem Run.AtRest.returned_of_lossy {r : Run} (hr : r.AtRest)
    (hs : Steady .lossy r.session.books) {st : Step} {τ : Transition} (hτ : τ ∈ r.log st) :
    τ.returned = true := by
  have hv := hr.valid.append [st]
  obtain ⟨log, t, ready, hdeeds, ho⟩ := (hr.deeds st).exists_occurs hτ
  exact ho.returned (hdeeds.valid hv) (hdeeds.steady hv hs).policy

theorem cycle?_of_mem_past {s : Session} {kept : Policy} (hs : Steady kept s.books) {c : Cycle}
    (hc : c ∈ s.past) : s.cycle? c.number = some c ∧ c.number < s.cycle.number := by
  have hnumbers : s.past.map (·.number) = (List.range s.cycle.number).reverse := hs.earlier
  have hlt : c.number < s.cycle.number := by
    have hmem : c.number ∈ (List.range s.cycle.number).reverse :=
      hnumbers ▸ List.mem_map_of_mem hc
    rwa [List.mem_reverse, List.mem_range] at hmem
  have hn : (s.past.map (·.number)).Nodup := by
    rw [hnumbers, List.nodup_reverse]
    exact List.nodup_range
  refine ⟨?_, hlt⟩
  rw [cycle?, if_neg (Nat.ne_of_gt hlt)]
  cases hfind : s.past.find? (·.number = c.number) with
  | none => simpa using List.find?_eq_none.mp hfind c hc
  | some d =>
    have hd : d.number = c.number := by simpa using List.find?_some hfind
    rw [List.inj_on_of_nodup_map hn (List.mem_of_find?_eq_some hfind) hc hd]

theorem tryReceiveCause_of_new {s : Session} {owner : Nat → Option CauseHandle}
    {handles : List CauseHandle} (ho : Orderly owner handles s.trail) (hrel : s.released = false)
    (n : Nat) :
    ((s.subscribeCauses n).1.tryReceiveCause (s.subscribeCauses n).2).2 = .empty := by
  have hk := trail_hub?_number (s := s)
  have hc := (ho.closed _ _ hk).mpr ⟨rfl, hrel⟩
  have hl := ho.calm _ _ hk
  have hsub : s.cycle.disconnects.subscribe n = s.cycle.disconnects.register (.new n) :=
    if_neg (by simp [hc])
  have hcurrent : (s.subscribeCauses n).1.cycle? (s.subscribeCauses n).2.cycle =
      some (s.subscribeCauses n).1.cycle := if_pos rfl
  have hpipe : (s.subscribeCauses n).1.cycle.disconnects.pipeline? (s.subscribeCauses n).2.id =
      some (.new n) := by
    show (s.cycle.disconnects.subscribe n).1.pipeline? (s.cycle.disconnects.subscribe n).2 = _
    rw [hsub]
    exact (hl.sound.pipeline?_register _).trans (if_pos rfl)
  have hcalm : (s.subscribeCauses n).1.cycle.disconnects.Calm := by
    show (s.cycle.disconnects.subscribe n).1.Calm
    rw [hsub]
    exact hl.register hc n
  rw [tryReceiveCause, onCauses, hcurrent]
  dsimp only
  rw [(hcalm.tryReceive_eq hpipe).1, Pipeline.tryReceive_nil rfl]
  rfl

/-- A running observer waits on the current hub, which then is not released. -/
theorem Orderly.awaits {owner : Nat → Option CauseHandle} {handles : List CauseHandle} {s : Session}
    (ho : Orderly owner handles s.trail) (ha : Attended handles [] s.trail) {o : Observer}
    (hmem : o ∈ s.observers) {k : Nat} {id : SubscriptionId} (hsub : o.subscription = some (k, id)) :
    s.released = false ∧ k = s.cycle.number ∧
      ∃ p, s.cycle.disconnects.pipeline? id = some p ∧ p.receiver = some (.observer o.name) := by
  have hrel : s.released = false := by
    refine Bool.eq_false_iff.mpr fun hrel => ?_
    rw [ho.idle hrel o hmem] at hsub
    cases hsub
  obtain ⟨hk, p, hp, hreceiver⟩ := ha.waits o hmem k id hsub List.not_mem_nil
  have hk : k = s.cycle.number := hk
  rw [hk, show s.trail.slot s.cycle.number id = s.cycle.disconnects.pipeline? id from
    Trail.slot_of_hub trail_hub?_number id] at hp
  exact ⟨hrel, hk, p, hp, hreceiver⟩

/-- **Only messages park a lifecycle call.** Unless the state is released, the hub of the current
cycle is unused, and a new handle for its cause is open. All earlier hubs are closed, and had one
cause at most. A running observer waits on the current hub. Every transition ends a cycle whose hub
was unused, and is complete when its message is announced; only that publish may be parked, and then
the call that makes it comes back with the state as the transition left it. On a lossy hub no call
is ever parked. -/
theorem only_messages_park (settings : Settings) (players : List Player)
    (catalog : List Packet.Entry) (before : List Step) :
    let r := run settings players catalog before
    let s := r.session
    let call := r.steps.length
    s.cycle.disconnects.published = 0 ∧
      (s.released = false → Unused s.cycle.disconnects ∧
        ∀ n, ((s.subscribeCauses n).1.tryReceiveCause (s.subscribeCauses n).2).2 = .empty) ∧
      (∀ c ∈ s.past, c.disconnects.closed = true ∧ c.disconnects.published ≤ 1) ∧
      (∀ c ∈ s.cycle :: s.past, c.disconnects.parkedPublications = []) ∧
      (∀ o ∈ s.observers, ∀ k id, o.subscription = some (k, id) →
        s.released = false ∧ k = s.cycle.number ∧
          ∃ p, s.cycle.disconnects.pipeline? id = some p ∧ p.receiver = some (.observer o.name)) ∧
      (∀ st, ∀ τ ∈ r.log st, Unused τ.ended.disconnects ∧ τ.Complete r.handles ∧
        (τ.returned = false → τ.caller ∈ parkedCalls τ.after.messages)) ∧
      (s.hasHandle = true →
        (∀ options, (s.connect call options).2 = .parked →
          ∃ τ, r.log (.connect options) = [τ] ∧ τ.returned = false ∧
            (s.connect call options).1 = τ.after) ∧
        (∀ n options, .parked ∈ (s.connectAll call options n).2 →
          ∃ τ ∈ r.log (.race n options), τ.returned = false) ∧
        ((s.disconnect call).2 = .parked →
          ∃ τ, r.log .disconnect = [τ] ∧ τ.returned = false ∧
            (s.disconnect call).1 =
              { τ.after with watches := τ.after.watches.filter (!isReady ·) })) ∧
      (settings.messagePolicy = .lossy → parkedCalls s.messages = [] ∧
        (∀ st, ∀ τ ∈ r.log st, τ.returned = true) ∧
        (s.hasHandle = true →
          (∀ options, (s.connect call options).2 ≠ .parked) ∧
          (∀ n options, .parked ∉ (s.connectAll call options n).2) ∧
          (s.disconnect call).2 ≠ .parked)) := by
  intro r s call
  have hr := run_atRest settings players catalog before
  have hu := run_unspent settings players catalog before
  have hs := run_steady settings players catalog before
  have ho : Orderly _ r.handles s.trail := hr.valid.orderly
  have hknown : ∀ c ∈ s.past, s.trail.hub? c.number = some c.disconnects ∧
      c.number < s.cycle.number := by
    intro c hc
    obtain ⟨hc', hlt⟩ := cycle?_of_mem_past hs hc
    exact ⟨trail_hub?_of_cycle? hc', hlt⟩
  -- Of each kind of call, the log of the step is that of the call.
  have hconnect : s.hasHandle = true → ∀ options,
      r.log (.connect options) = s.connectLog call options := fun hh _ => if_pos hh
  have hrace : s.hasHandle = true → ∀ n options,
      r.log (.race n options) = s.connectAllLog call options n := fun hh _ _ => if_pos hh
  have hdisconnect : s.hasHandle = true → r.log .disconnect = s.disconnectLog call :=
    fun hh => if_pos hh
  refine ⟨hu.published, fun hrel => ⟨ho.unused hu hrel, tryReceiveCause_of_new ho hrel⟩,
    ?past, ?idle, ?observers, fun st τ hτ => ?transitions, fun hh => ⟨?connect, ?race, ?disconnect⟩,
    fun hlossy => ?lossy⟩
  case past =>
    intro c hc
    obtain ⟨hk, hlt⟩ := hknown c hc
    refine ⟨Bool.eq_true_of_not_eq_false fun hopen => ?_,
      hu.once c.number _ (congrArg (Option.map _) hk)⟩
    exact Nat.ne_of_lt hlt ((ho.closed _ _ hk).mp hopen).1
  case idle =>
    intro c hc
    rcases List.mem_cons.mp hc with rfl | hc
    · exact (ho.calm _ _ trail_hub?_number).idle
    · exact (ho.calm _ _ (hknown c hc).1).idle
  case observers =>
    exact fun o hmem k id hsub => ho.awaits (run_attended settings players catalog before) hmem hsub
  case transitions => exact ⟨hr.unused_ended hu hτ, hr.complete hu hτ⟩
  case connect =>
    intro options hparked
    rw [hconnect hh]
    exact connect_of_parked hr.valid hr.quiet hh hparked
  case race =>
    intro n options hparked
    rw [hrace hh]
    exact connectAll_parked hparked
  case disconnect =>
    intro hparked
    rw [hdisconnect hh]
    exact disconnect_of_parked hr.valid hh hparked
  case lossy =>
    have hsound : s.messages.Sound := hr.valid.accounted.good.sound
    have hreturned : ∀ st, ∀ τ ∈ r.log st, τ.returned = true := fun st τ hτ =>
      hr.returned_of_lossy (hlossy ▸ hs) hτ
    have hnone : ∀ {log : List Transition} {st : Step}, r.log st = log →
        ¬ ∃ τ ∈ log, τ.returned = false := by
      rintro log st hlog ⟨τ, hτ, hparked⟩
      rw [hreturned st τ (hlog ▸ hτ)] at hparked
      cases hparked
    refine ⟨?_, hreturned, fun hh => ⟨fun options hparked => ?_, fun n options hparked => ?_,
      fun hparked => ?_⟩⟩
    · rw [parkedCalls, hsound.parkedPublications_eq (hs.policy.trans hlossy)]
      rfl
    · exact hnone (hconnect hh options) (connect_parked hparked)
    · exact hnone (hrace hh n options) (connectAll_parked hparked)
    · exact hnone (hdisconnect hh) (disconnect_parked hparked)

end Session

end Switchboard
