import Mathlib.Data.List.Nodup
import Switchboard.Proofs.Hub.Replies

/-!
# Delivery in order

What a subscriber can rely on, whatever the other users of the hub do: its buffer takes a value of
a publish at most once, and only if it was registered at the call; publishes that do not overlap
come in the order of their calls; and the holder receives what the buffer took, in that order and
without a gap.

**Main statement** (`deliveries_in_order`). All of this, for every run of a hub, every subscription
made in it and every order in which publishes visit their targets.
-/

namespace Switchboard.Hub

variable {π ρ α : Type}

/-! ## The stages of a subscription -/

/-- What the channel of a subscription holds; without a holder there is nothing. -/
def channelOf (h : Hub π ρ α) (id : SubscriptionId) : List α :=
  ((h.pipeline? id).map (·.channel.toList)).getD []

/-- What the worker of a subscription has in its hand. -/
def handOf (h : Hub π ρ α) (id : SubscriptionId) : List α :=
  ((h.pipeline? id).map (·.hand.toList)).getD []

/-- What the queue of a subscription holds. -/
def queueOf (h : Hub π ρ α) (id : SubscriptionId) : List α :=
  ((h.pipeline? id).map (·.buffer.items.toList)).getD []

theorem unreadOf_eq (h : Hub π ρ α) (id : SubscriptionId) :
    h.unreadOf id = h.channelOf id ++ h.handOf id ++ h.queueOf id := by
  simp only [unreadOf, channelOf, handOf, queueOf]
  cases h.pipeline? id <;> rfl

/-! ## One publish -/

theorem mem_storedIn {id : SubscriptionId} {caller : π} {v : α} {log : List (Event π ρ α)} :
    (caller, v) ∈ storedIn id log ↔ .stored id caller v ∈ log := by
  simp only [storedIn, List.mem_filterMap]
  constructor
  · rintro ⟨e, he, heq⟩
    cases e with
    | stored i c w =>
      by_cases hi : i = id
      · simp only [hi, if_true, Option.some.injEq, Prod.mk.injEq] at heq
        obtain ⟨rfl, rfl⟩ := heq
        rwa [← hi]
      · simp [hi] at heq
    | _ => simp at heq
  · exact fun he => ⟨_, he, by simp⟩

theorem count_storedIn [DecidableEq π] (id : SubscriptionId) (caller : π)
    (log : List (Event π ρ α)) :
    ((storedIn id log).map (·.1)).count caller = (storesIn log).count (id, caller) := by
  induction log with
  | nil => rfl
  | cons e rest ih =>
    simp only [storedIn, storesIn] at ih ⊢
    cases e with
    | stored i c w =>
      by_cases hi : i = id
      · by_cases hc : c = caller
        · simp [hi, hc, ih]
        · simp [hi, hc, ih]
      · simp [hi, ih]
    | _ => simpa using ih

theorem count_storesIn_eq_zero [DecidableEq π] {id : SubscriptionId} {caller : π}
    {log : List (Event π ρ α)} (h : ∀ v, .stored id caller v ∉ log) :
    (storesIn log).count (id, caller) = 0 := by
  refine List.count_eq_zero.mpr fun hmem => ?_
  simp only [storesIn, List.mem_filterMap] at hmem
  obtain ⟨e, he, heq⟩ := hmem
  cases e with
  | stored i c w =>
    simp only [Option.some.injEq, Prod.mk.injEq] at heq
    obtain ⟨rfl, rfl⟩ := heq
    exact h w he
  | _ => simp at heq

theorem Step.publish_moves {h : Hub Nat Nat α} (ho : h.owned = true) (hc : h.closed = false)
    (call : Nat) (order : List SubscriptionId) (v : α) :
    ∃ log, (Step.publish order v).log h call = .called call :: log ∧
      Moves ⟨{ h with published := h.published + 1 }, [⟨call, order, v, h.targets order, 0, []⟩]⟩
        log ⟨((Step.publish order v).act h call).hub, []⟩ := by
  obtain ⟨log, hown, hmoves⟩ := publishAll_moves hc call order v []
  refine ⟨log, ?_, ?_⟩
  · simp only [Step.log, ho, if_true, hown]
  · simpa only [Step.act, byOwner, ho, if_true, Reply.map] using hmoves

theorem Step.publish_idle {h : Hub Nat Nat α} (hclosed : ¬ (h.owned = true ∧ h.closed = false))
    (call : Nat) (order : List SubscriptionId) (v : α) :
    ((Step.publish order v).act h call).hub = h ∧
      ∀ id w, .stored id call w ∉ (Step.publish order v).log h call := by
  by_cases ho : h.owned = true
  · have hc : h.closed = true := by
      by_contra hc
      exact hclosed ⟨ho, by simpa using hc⟩
    have hnone := publishEach_of_closed (r := ⟨h, 0, false, []⟩) call order [v] hc
    constructor
    · simp only [Step.act, byOwner, ho, if_true, Reply.map, publishAll, hnone.1]
    · simp [Step.log, ho, publishAllLog, hnone.2]
  · simp [Step.act, byOwner, Step.log, ho]

/-- **A publish of one value**, from its call on: a subscription takes that value at most once, and
only if it was registered at the call. -/
theorem Run.stored_of_publish {r : Run α} (hg : r.hub.Good)
    (hidle : r.calls ∉ callers ⟨r.hub, []⟩) (order : List SubscriptionId) (v : α)
    (rest : List (Step α)) :
    ∃ log, (r.extend (.publish order v :: rest)).log = r.log ++ log ∧
      (∀ id, due r.calls id ⟨(r.extend (.publish order v :: rest)).hub, []⟩ +
        (storesIn log).count (id, r.calls) ≤ if id ∈ r.hub.registered then 1 else 0) ∧
      ∀ id w, .stored id r.calls w ∈ log → w = v := by
  obtain ⟨-, later, hlog, hturns, hcalls, -, -⟩ :=
    Run.extend_turns (r := r.next (.publish order v)) (Step.good hg _) rest
  have hfresh : r.calls ∉ callsIn later := fun hmem => by
    have := (hcalls _ hmem).1
    simp only [Run.next] at this
    omega
  refine ⟨_, by rw [Run.extend_cons, hlog, Run.next, List.append_assoc], ?_⟩
  by_cases hclosed : r.hub.owned = true ∧ r.hub.closed = false
  · obtain ⟨log, hown, hmoves⟩ := Step.publish_moves hclosed.1 hclosed.2 r.calls order v
    set scene : Scene Nat Nat α :=
      ⟨{ r.hub with published := r.hub.published + 1 },
        [⟨r.calls, order, v, r.hub.targets order, 0, []⟩]⟩
    have hall : Turns scene (log ++ later) _ := hmoves.turns.trans hturns
    have hsound : scene.hub.Sound := ⟨hg.sound.nodup, hg.sound.named, hg.sound.fits⟩
    -- The caller has this one publish under way, with this one value.
    have hsteady : Steady r.calls v scene := by
      intro q hq hqc
      rcases List.mem_append.mp hq with hq | hq
      · rw [List.mem_singleton.mp hq]
        exact ⟨rfl, rfl⟩
      · exact absurd (List.mem_map.mpr ⟨q, hq, hqc⟩) hidle
    have hfresh' : r.calls ∉ callsIn (log ++ later) := by
      rw [callsIn_append, hmoves.callsIn]
      exact hfresh
    obtain ⟨hle, hval⟩ := hall.stored_le hsound hfresh' hsteady
    rw [hown, List.cons_append]
    refine ⟨fun id => ?_, fun id w hmem => ?_⟩
    · have hdue : due r.calls id scene = (r.hub.targets order).count id := due_call r.hub hidle ..
      refine Nat.le_trans (hle id) ?_
      rw [hdue]
      split
      · exact List.nodup_iff_count_le_one.mp (nodup_targets hg.sound order) id
      · rename_i hid
        exact Nat.le_of_eq (List.count_eq_zero.mpr fun h => hid (mem_targets.mp h))
    · rcases List.mem_cons.mp hmem with h | h
      · cases h
      · exact hval id w h
  · obtain ⟨hsame, hnothing⟩ := Step.publish_idle hclosed r.calls order v
    rw [show (r.next (.publish order v)).hub = r.hub from hsame] at hturns
    have hnone : ∀ id w,
        .stored id r.calls w ∉ (Step.publish order v).log r.hub r.calls ++ later := by
      intro id w hmem
      rcases List.mem_append.mp hmem with h | h
      · exact hnothing id w h
      · exact (hturns.not_stored hg.sound hfresh hidle).2 id w h
    refine ⟨fun id => ?_, fun id w hmem => absurd hmem (hnone id w)⟩
    have hidle' := (hturns.not_stored hg.sound hfresh hidle).1
    rw [Run.extend_cons, count_storesIn_eq_zero (hnone id), due_of_idle hidle' id]
    exact Nat.zero_le _

/-! ## Runs from a new hub -/

section runs

variable (label : String) (policy : Policy) (steps : List (Step α))

theorem run_good : (run label policy steps).hub.Good :=
  (Run.extend_turns (r := ⟨new label policy, 0, []⟩) (good_new label policy) steps).1

@[simp] theorem run_calls : (run label policy steps).calls = steps.length := by
  simp [run]

theorem run_turns :
    Turns ⟨new label policy, []⟩ (run label policy steps).log ⟨(run label policy steps).hub, []⟩ ∧
      (∀ c ∈ callsIn (run label policy steps).log, c < steps.length) ∧
      (callsIn (run label policy steps).log).Nodup := by
  obtain ⟨-, log, hlog, hturns, hcalls, hnodup, -⟩ :=
    Run.extend_turns (r := ⟨new label policy, 0, []⟩) (good_new label policy) steps
  have heq : (run label policy steps).log = log := hlog
  refine ⟨heq ▸ hturns, fun c hc => ?_, heq ▸ hnodup⟩
  rw [heq] at hc
  have := (hcalls c hc).2
  rw [Run.extend_calls] at this
  simpa using this

/-- Of the publishes called, some are under way and the others have returned. -/
theorem run_callers_perm :
    (callsIn (run label policy steps).log).Perm
      (callers ⟨(run label policy steps).hub, []⟩ ++
        (returnsIn (run label policy steps).log).map (·.1)) := by
  have hperm := (run_turns label policy steps).1.callers_perm (sound_new label policy)
  have hnone : callers (⟨new label policy, []⟩ : Scene Nat Nat α) = [] := rfl
  rwa [hnone, List.nil_append] at hperm

theorem not_mem_callers {c : Nat} (hc : c ∉ callsIn (run label policy steps).log) :
    c ∉ callers ⟨(run label policy steps).hub, []⟩ := fun hmem =>
  hc ((run_callers_perm label policy steps).mem_iff.mpr (List.mem_append_left _ hmem))

theorem not_mem_callers_of_returned {c : Nat} {m : Nat}
    (hret : .returned c m ∈ (run label policy steps).log) :
    c ∉ callers ⟨(run label policy steps).hub, []⟩ ∧ c ∈ callsIn (run label policy steps).log := by
  obtain ⟨-, -, hnodup⟩ := run_turns label policy steps
  have hperm := run_callers_perm label policy steps
  have hmem : c ∈ (returnsIn (run label policy steps).log).map (·.1) :=
    List.mem_map.mpr ⟨(c, m), List.mem_filterMap.mpr ⟨_, hret, rfl⟩, rfl⟩
  have hdisjoint := List.nodup_append.mp (hperm.nodup_iff.mp hnodup)
  exact ⟨fun hc => hdisjoint.2.2 c hc c hmem rfl,
    hperm.mem_iff.mpr (List.mem_append_right _ hmem)⟩

theorem mem_callsIn_of_stored {c : Nat} {id : SubscriptionId} {v : α}
    (hst : .stored id c v ∈ (run label policy steps).log) :
    c ∈ callsIn (run label policy steps).log := by
  by_contra hc
  refine ((run_turns label policy steps).1.not_stored (sound_new label policy) hc ?_).2 id v hst
  simp [callers, flight, parkedPublications, new]

end runs

/-! ## One subscription -/

section subscription

variable {label : String} {policy : Policy}

theorem Run.pipeline?_of_subscribe {r : Run α} (hs : r.hub.Sound) (hc : r.hub.closed = false)
    {call n : Nat} {S : SubscriptionId}
    (hS : ((Step.subscribe n).act r.hub call).result = .subscribed S) :
    S = r.hub.lastId + 1 ∧ (r.next (.subscribe n)).hub.pipeline? S = some (.new n) := by
  have ho : r.hub.owned = true := by
    by_contra ho
    simp [Step.act, byOwner, ho] at hS
  simp only [Step.act, byOwner, ho, if_true, Answer.subscribed.injEq, Hub.subscribe, hc,
    Bool.false_eq_true, if_false] at hS
  have hid : S = r.hub.lastId + 1 := hS.symm
  refine ⟨hid, ?_⟩
  simp only [Run.next, Step.act, byOwner, ho, if_true, Hub.subscribe, hc, Bool.false_eq_true,
    if_false]
  rw [hid]
  refine (List.lookup_append ..).trans ?_
  rw [show List.lookup (r.hub.lastId + 1) r.hub.pipelines = none from
    hs.pipeline?_of_lt (Nat.lt_succ_self _)]
  simp

theorem Step.subscribed_of_closed {h : Hub Nat Nat α} (hc : h.closed = true) {call n : Nat}
    {S : SubscriptionId} (hS : ((Step.subscribe n).act h call).result = .subscribed S) : S = 0 := by
  by_cases ho : h.owned = true
  · simp only [Step.act, byOwner, ho, if_true, Answer.subscribed.injEq] at hS
    rw [← hS, Hub.subscribe, if_pos hc]
  · simp [Step.act, byOwner, ho] at hS

theorem Sound.pipeline?_zero {π ρ : Type} {h : Hub π ρ α} (hs : h.Sound) :
    h.pipeline? 0 = none := by
  cases hp : h.pipeline? 0 with
  | none => rfl
  | some p => exact absurd (hs.named _ (mem_of_pipeline? hp)).1 (Nat.not_succ_le_zero 0)

/-- The account of a subscription, from its start to the end of a run. -/
theorem account_of_subscribe {before after : List (Step α)} {n : Nat} {S : SubscriptionId}
    (hS : ((Step.subscribe n).act (run label policy before).hub before.length).result =
      .subscribed S) {r : Run α} (hr : r = run label policy (before ++ .subscribe n :: after)) :
    takenBy S r.log ++ r.hub.unreadOf S <+: acceptedBy S r.log ∧
      (.cancel S ∉ after → .abandon S ∉ after →
        takenBy S r.log ++ r.hub.unreadOf S = acceptedBy S r.log) ∧
      (.abandon S ∉ after → S ≠ 0 → (r.hub.pipeline? S).isSome = true) := by
  have hgood := run_good label policy before
  have hbefore := (run_turns label policy before).1
  set r₀ := run label policy before with hr₀
  obtain ⟨-, log, hlog, hturns, -, -, hcut⟩ :=
    Run.extend_turns (r := r₀.next (.subscribe n)) (Step.good hgood _) after
  have hsound : (r₀.next (.subscribe n)).hub.Sound := (Step.good hgood (.subscribe n)).sound
  have hr' : r = (r₀.next (.subscribe n)).extend after := by
    rw [hr, run_append, Run.extend_cons]
  have hlog' : r.log = r₀.log ++ log := by
    rw [hr', hlog]
    simp [Run.next, Step.log]
  rw [← hr'] at hturns
  by_cases hc : r₀.hub.closed = true
  · -- A closed hub gives out a handle with nothing behind it.
    obtain rfl := Step.subscribed_of_closed hc hS
    obtain ⟨hst₁, htk₁, -⟩ := hbefore.absent (sound_new label policy)
      (sound_new label policy).pipeline?_zero (Nat.zero_le _)
    obtain ⟨hst₂, htk₂, hend⟩ := hturns.absent hsound hsound.pipeline?_zero (Nat.zero_le _)
    rw [hlog', takenBy_append, acceptedBy_append, acceptedBy, acceptedBy, hst₁, hst₂, htk₁, htk₂,
      unreadOf_none hend]
    exact ⟨List.prefix_refl _, fun _ _ => rfl, fun _ h => absurd rfl h⟩
  · obtain ⟨hid, hp⟩ := Run.pipeline?_of_subscribe hgood.sound (by simpa using hc) hS
    have hlt : r₀.hub.lastId < S := by
      rw [hid]
      exact Nat.lt_succ_self _
    obtain ⟨hst, htk⟩ := hbefore.before (sound_new label policy) hlt
    have haccount := hturns.account hsound hp
    have hnew : (Pipeline.new n : Pipeline (Publication Nat α) Nat α).unread = [] := rfl
    have hkept := haccount.kept
    have hcutoff := haccount.cut
    rw [hnew] at hkept hcutoff
    simp only [List.nil_append] at hkept hcutoff
    rw [hlog', takenBy_append, acceptedBy_append, acceptedBy.eq_1 S r₀.log, hst, htk, List.map_nil,
      List.nil_append, List.nil_append]
    refine ⟨?_, fun hcancel habandon => ?_, fun habandon _ => ?_⟩
    · by_cases h : CutIn S log
      · exact (hcutoff h).2
      · obtain ⟨p, hp', heq⟩ := hkept h
        exact (unreadOf_some hp' ▸ heq) ▸ List.prefix_refl _
    · obtain ⟨p, hp', heq⟩ := hkept fun h => ((hcut S).1 h).elim hcancel habandon
      rw [unreadOf_some hp', heq]
    · exact haccount.held fun h => habandon ((hcut S).2 h)

theorem exists_run_split (label : String) (policy : Policy) {steps : List (Step α)} {k : Nat}
    {s : Step α} (hk : steps[k]? = some s) :
    k ≤ steps.length ∧ (run label policy (steps.take k)).calls = k ∧
      run label policy steps =
        (run label policy (steps.take k)).extend (s :: steps.drop (k + 1)) := by
  obtain ⟨hlt, hget⟩ := List.getElem?_eq_some_iff.mp hk
  refine ⟨Nat.le_of_lt hlt, ?_, ?_⟩
  · rw [run_calls, List.length_take, Nat.min_eq_left (Nat.le_of_lt hlt)]
  · rw [← run_append, ← hget, ← List.drop_eq_getElem_cons hlt, List.take_append_drop]

/-- What the subscriptions took of a publish, and what they have still to take of it. -/
theorem stored_of_step (label : String) (policy : Policy) {steps : List (Step α)} {k : Nat}
    {order : List SubscriptionId} {v : α} (hk : steps[k]? = some (.publish order v)) :
    (∀ id, due k id ⟨(run label policy steps).hub, []⟩ +
        (storesIn (run label policy steps).log).count (id, k) ≤
          if id ∈ (run label policy (steps.take k)).hub.registered then 1 else 0) ∧
      ∀ id w, .stored id k w ∈ (run label policy steps).log → w = v := by
  obtain ⟨hle, hcalls, hrun⟩ := exists_run_split label policy hk
  have hgood := run_good label policy (steps.take k)
  have hold := (run_turns label policy (steps.take k)).2.1
  have hfresh : k ∉ callsIn (run label policy (steps.take k)).log := by
    intro hmem
    have := hold k hmem
    rw [List.length_take, Nat.min_eq_left hle] at this
    exact absurd this (Nat.lt_irrefl k)
  have hnone : ∀ id w, .stored id k w ∉ (run label policy (steps.take k)).log := fun id w hmem =>
    hfresh (mem_callsIn_of_stored label policy _ hmem)
  obtain ⟨log, hlog, hle', hval⟩ := Run.stored_of_publish hgood
    (by rw [hcalls]; exact not_mem_callers label policy _ hfresh) order v (steps.drop (k + 1))
  rw [hcalls] at hle' hval
  rw [hrun, hlog]
  refine ⟨fun id => ?_, fun id w hmem => ?_⟩
  · rw [storesIn_append, List.count_append, count_storesIn_eq_zero (hnone id), Nat.zero_add]
    exact hle' id
  · rcases List.mem_append.mp hmem with h | h
    · exact absurd h (hnone id w)
    · exact hval id w h

theorem call_of_step {steps : List (Step α)} {k : Nat} {s : Step α} (hk : steps[k]? = some s)
    (hcalled : k ∈ callsIn (run label policy steps).log) :
    k ∈ callsIn (s.log (run label policy (steps.take k)).hub k) := by
  obtain ⟨hle, hcalls, hrun⟩ := exists_run_split label policy hk
  obtain ⟨-, log, hlog, -, hlater, -⟩ := Run.extend_turns
    (r := (run label policy (steps.take k)).next s)
    (Step.good (run_good label policy _) s) (steps.drop (k + 1))
  rw [hrun, Run.extend_cons, hlog, Run.next, callsIn_append, callsIn_append, hcalls] at hcalled
  rcases List.mem_append.mp hcalled with h | h
  · rcases List.mem_append.mp h with h | h
    · have := (run_turns label policy (steps.take k)).2.1 k h
      rw [List.length_take, Nat.min_eq_left hle] at this
      exact absurd this (Nat.lt_irrefl k)
    · exact h
  · have := (hlater k h).1
    simp only [Run.next, hcalls] at this
    exact absurd this (Nat.not_succ_le_self k)

/-- Whose value a subscription took. -/
theorem origin_of_stored {steps : List (Step α)} {S : SubscriptionId} {k : Nat} {v : α}
    (hst : (k, v) ∈ storedIn S (run label policy steps).log) :
    (∃ order, steps[k]? = some (.publish order v) ∧
        S ∈ (run label policy (steps.take k)).hub.registered) ∨
      ∃ order vs, steps[k]? = some (.burst order vs) := by
  rw [mem_storedIn] at hst
  have hcalled := mem_callsIn_of_stored label policy _ hst
  have hlt := (run_turns label policy steps).2.1 k hcalled
  have hk : steps[k]? = some steps[k] := List.getElem?_eq_getElem hlt
  have hown := call_of_step hk hcalled
  rcases steps[k].callsIn_log (run label policy (steps.take k)).hub k with h | ⟨-, h⟩
  · rw [h] at hown
    cases hown
  · rcases h with ⟨order, w, h⟩ | ⟨order, vs, h⟩
    · rw [h] at hk
      obtain ⟨hcount, hval⟩ := stored_of_step label policy hk
      refine Or.inl ⟨order, by rw [hk, hval S v hst], ?_⟩
      by_contra hreg
      have := hcount S
      rw [if_neg hreg, Nat.le_zero, Nat.add_eq_zero_iff, ← count_storedIn] at this
      exact List.count_eq_zero.mp this.2
        (List.mem_map.mpr ⟨(k, v), mem_storedIn.mpr hst, rfl⟩)
    · exact Or.inr ⟨order, vs, by rw [hk, h]⟩

theorem count_of_publish {steps : List (Step α)} (S : SubscriptionId) {k : Nat}
    {order : List SubscriptionId} {v : α} (hk : steps[k]? = some (.publish order v)) :
    ((storedIn S (run label policy steps).log).map (·.1)).count k ≤ 1 := by
  rw [count_storedIn]
  refine Nat.le_trans (Nat.le_trans (Nat.le_add_left ..) ((stored_of_step label policy hk).1 S)) ?_
  split
  · exact Nat.le_refl 1
  · exact Nat.zero_le 1

/-- Publishes that do not overlap come in order. -/
theorem order_of_returned {steps : List (Step α)} {S : SubscriptionId} {i j m : Nat} {v w : α}
    (hret : .returned i m ∈ (run label policy (steps.take j)).log)
    (hi : (i, v) ∈ storedIn S (run label policy steps).log)
    (hj : (j, w) ∈ storedIn S (run label policy steps).log) :
    [(i, v), (j, w)].Sublist (storedIn S (run label policy steps).log) := by
  have hrun : run label policy steps =
      (run label policy (steps.take j)).extend (steps.drop j) := by
    rw [← run_append, List.take_append_drop]
  obtain ⟨-, log, hlog, hturns, hlater, -⟩ :=
    Run.extend_turns (run_good label policy (steps.take j)) (steps.drop j)
  obtain ⟨hidle, hcalled⟩ := not_mem_callers_of_returned label policy _ hret
  have hold := (run_turns label policy (steps.take j)).2.1
  rw [hrun, hlog, storedIn_append] at hi hj ⊢
  -- What has returned takes nothing any more, and what has not been called has taken nothing.
  have hi' : (i, v) ∈ storedIn S (run label policy (steps.take j)).log := by
    rcases List.mem_append.mp hi with h | h
    · exact h
    · have hfresh : i ∉ callsIn log := by
        intro hmem
        have h₁ := hold i hcalled
        have h₂ := (hlater i hmem).1
        rw [run_calls] at h₂
        omega
      exact absurd (mem_storedIn.mp h)
        ((hturns.not_stored (run_good label policy _).sound hfresh hidle).2 S v)
  have hj' : (j, w) ∈ storedIn S log := by
    rcases List.mem_append.mp hj with h | h
    · have h₁ := hold j (mem_callsIn_of_stored label policy _ (mem_storedIn.mp h))
      rw [List.length_take] at h₁
      omega
    · exact h
  exact List.Sublist.append (List.singleton_sublist.mpr hi') (List.singleton_sublist.mpr hj')

end subscription

/-! ## What a subscriber can rely on -/

/-- **Deliveries are in order.** A subscription `S` is made by the step after `before`. At the end
of the run its holder has received a prefix of what its queue accepted. Unless `S` was cancelled or
abandoned, the rest stands in the channel, the worker's hand and the queue; after a cancel what
stands in the channel and the hand still follows. Every value accepted is that of a publish called
while `S` was registered, or one of a burst; no publish has its value accepted twice, and a publish
that returned before another was called comes before it. -/
theorem deliveries_in_order (label : String) (policy : Policy) (before after : List (Step α))
    (n : Nat) (S : SubscriptionId)
    (hS : ((Step.subscribe n).act (run label policy before).hub before.length).result =
      .subscribed S) :
    let steps := before ++ .subscribe n :: after
    let r := run label policy steps
    let received := receivedBy label policy steps S
    received <+: acceptedBy S r.log ∧
      (.cancel S ∉ after → .abandon S ∉ after →
        received ++ r.hub.channelOf S ++ r.hub.handOf S ++ r.hub.queueOf S =
          acceptedBy S r.log) ∧
      (.abandon S ∉ after →
        received ++ r.hub.channelOf S ++ r.hub.handOf S <+: acceptedBy S r.log ∧
          (S ≠ 0 → (r.hub.pipeline? S).isSome = true)) ∧
      (∀ k v, (k, v) ∈ storedIn S r.log →
        (∃ order, steps[k]? = some (.publish order v) ∧
            S ∈ (run label policy (steps.take k)).hub.registered) ∨
          ∃ order vs, steps[k]? = some (.burst order vs)) ∧
      (∀ k order v, steps[k]? = some (.publish order v) →
        ((storedIn S r.log).map (·.1)).count k ≤ 1) ∧
      ∀ i j m v w, (i, m) ∈ results label policy (steps.take j) →
        (i, v) ∈ storedIn S r.log → (j, w) ∈ storedIn S r.log →
        [(i, v), (j, w)].Sublist (storedIn S r.log) := by
  intro steps r received
  have hr : r = run label policy (before ++ .subscribe n :: after) := rfl
  obtain ⟨hpre, hkept, hheld⟩ := account_of_subscribe hS hr
  have hreceived : takenBy S r.log = received := (receivedBy_eq label policy steps S).symm
  rw [hreceived, unreadOf_eq] at hpre hkept
  refine ⟨(List.prefix_append _ _).trans hpre, fun hc ha => ?_, fun ha => ⟨?_, hheld ha⟩,
    fun k v hst => origin_of_stored hst, fun k order v hk => count_of_publish S hk,
    fun i j m v w hret hi hj => order_of_returned (mem_results.mp hret) hi hj⟩
  · rw [List.append_assoc, List.append_assoc, ← List.append_assoc (r.hub.channelOf S)]
    exact hkept hc ha
  · rw [← List.append_assoc, ← List.append_assoc] at hpre
    exact (List.prefix_append _ _).trans hpre

/-- Three values fill a subscription with a buffer of one; a fourth is parked and let in by a
receive. Then the hub closes, and the holder receives once more. -/
theorem deliveries_in_order_parked :
    let steps : List (Step Nat) := [.subscribe 1, .publish [] 7, .publish [] 8, .publish [] 9,
      .publish [] 10, .receive 1, .close, .receive 1]
    let r := run "hub" .reliable steps
    receivedBy "hub" .reliable steps 1 ++ r.hub.channelOf 1 ++ r.hub.handOf 1 ++ r.hub.queueOf 1 =
        acceptedBy 1 r.log ∧
      receivedBy "hub" .reliable steps 1 = [7, 8] ∧ acceptedBy 1 r.log = [7, 8, 9, 10] ∧
      [(1, 7), (4, 10)].Sublist (storedIn 1 r.log) := by
  intro steps r
  have h := deliveries_in_order "hub" .reliable [] steps.tail 1 1 rfl
  refine ⟨h.2.1 (by decide) (by decide), by rfl, by rfl, ?_⟩
  exact h.2.2.2.2.2 1 4 1 7 10 (by decide) (by decide) (by decide)

end Switchboard.Hub
