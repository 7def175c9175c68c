import Switchboard.Proofs.Queue.Returns

/-!
# Shutting a queue

A queue is shut in two ways, by closing and by retiring it. Both send everyone away who waits and
refuse every later push; they differ in what becomes of the stored values.

**Steps on a shut queue** (`Move.of_shut`). Nobody waits, nothing is stored, and a pop comes back at
once with the oldest value, if there is one.

**Shutting twice** (`retire_close`, `close_retire`). A close discards what a queue holds that was
retired, and retiring a closed one changes nothing; so the order of the two does not matter.

**Main statement** (`shutting_is_final`). What every call returns with from the moment a queue is
shut, whatever was done before and whatever is done afterwards.
-/

namespace Switchboard.Queue

variable {α : Type}

/-- The steps that shut a queue. -/
def Step.shuts : Step α → Bool
  | close | retire => true
  | push _ | tryPush _ | pop | tryPop => false

/-! ## Shutting twice -/

section states

variable {π ρ : Type} (q : Queue π ρ α)

theorem close_close : q.close.queue.close.queue = q.close.queue := rfl

theorem close_retire : q.close.queue.retire.queue = q.close.queue := by
  have hc : q.close.queue.isClosed = true := rfl
  rw [retire_of_shut hc]

theorem retire_close : q.retire.queue.close.queue = q.close.queue := by
  cases hc : q.isClosed with
  | true => rw [retire_of_shut hc]
  | false =>
    rw [retire_of_open hc]
    rfl

theorem retire_retire : q.retire.queue.retire.queue = q.retire.queue := by
  cases hc : q.isClosed with
  | true => rw [retire_of_shut hc, retire_of_shut hc]
  | false =>
    have hc' : q.retire.queue.isClosed = true := by
      rw [retire_of_open hc]
      rfl
    rw [retire_of_shut hc']

end states

/-! ## One step -/

section moves

variable {pusher popper : Nat} {w w' : View Nat Nat α} {st : Step α} {d : Deed Nat Nat α}

theorem View.Settled.dismissed_eq_nil (hs : w.Settled) (hc : w.closed = true) :
    w.dismissed = [] := by
  obtain ⟨hpush, hpop⟩ := hs.alone_of_closed hc
  rw [View.dismissed, hpush, hpop]
  rfl

theorem own_of_shuts (hst : st.shuts = true) : st.value? = none ∧ st.takes = false := by
  cases st with
  | close | retire => exact ⟨rfl, rfl⟩
  | _ => cases hst

/-- **A step that shuts a queue sends everyone away.** -/
theorem Move.shuts (hm : Move pusher popper w st d w') (hs : w.Settled) (hst : st.shuts = true) :
    d = ⟨none, none, false, w.dismissed⟩ ∧ w'.closed = true ∧
      (st = .retire → w'.items = w.items) ∧ (st = .close → w'.items = []) := by
  obtain ⟨hvalue, htakes⟩ := own_of_shuts hst
  cases hm with
  | refuse hrefuse =>
    cases st with
    | retire =>
      rw [hs.dismissed_eq_nil hrefuse]
      exact ⟨rfl, hrefuse, fun _ => rfl, nofun⟩
    | close => cases hrefuse
    | _ => cases hst
  | close => exact ⟨rfl, rfl, nofun, fun _ => rfl⟩
  | retire _ => exact ⟨rfl, rfl, fun _ => rfl, nofun⟩
  | store hv _ _ _ | handOver hv _ _ _ =>
    rw [hvalue] at hv
    cases hv
  | take ht _ _ | letIn ht _ _ =>
    rw [htakes] at ht
    cases ht
  | parkPush _ _ | parkPop _ _ => cases hst

/-- **A step on a shut queue.** Whoever takes a value gets the oldest one, and that is all. -/
theorem Move.of_shut (hm : Move pusher popper w st d w') (hs : w.Settled) (hc : w.closed = true) :
    d = ⟨none, if st.takes then w.items.head? else none, false, []⟩ ∧ w'.closed = true ∧
      (st ≠ .close → w'.items = if st.takes then w.items.tail else w.items) ∧
      (w.items = [] → w'.items = []) := by
  have hopen : w.closed ≠ false := by simp [hc]
  cases hm with
  | refuse hrefuse =>
    refine ⟨?_, hc, fun _ => ?_, fun h => h⟩
    all_goals
      by_cases ht : st.takes = true
      · have hnil : w.items = [] := by
          cases st with
          | pop => exact hrefuse.1
          | tryPop => exact hrefuse
          | _ => cases ht
        simp [hnil]
      · simp [ht]
  | take ht hitems _ =>
    refine ⟨?_, hc, fun _ => ?_, fun h => ?_⟩
    · simp [ht, hitems]
    · simp [ht, hitems]
    · rw [hitems] at h
      cases h
  | letIn _ _ hpush =>
    rw [(hs.alone_of_closed hc).1] at hpush
    cases hpush
  | close =>
    rw [hs.dismissed_eq_nil hc]
    exact ⟨rfl, rfl, fun h => absurd rfl h, fun _ => rfl⟩
  | store _ h _ _ | handOver _ h _ _ | parkPush h _ | parkPop h _ | retire h => exact absurd h hopen

/-! ### What such steps return -/

theorem returns_dismissed (w : View Nat Nat α) (hst : st.shuts = true) (now : Nat) :
    (⟨none, none, false, w.dismissed⟩ : Deed Nat Nat α).pushReturns st now =
        w.pushers.map (fun p => ⟨p.1, now, false⟩) ∧
      (⟨none, none, false, w.dismissed⟩ : Deed Nat Nat α).popReturns st now =
        w.poppers.map (⟨·, now, none⟩) := by
  obtain ⟨hvalue, htakes⟩ := own_of_shuts hst
  rw [Deed.pushReturns, Deed.popReturns, hvalue, htakes, View.dismissed, List.filterMap_append,
    List.filterMap_append, List.filterMap_map, List.filterMap_map, List.filterMap_map,
    List.filterMap_map]
  constructor <;> simp

theorem returns_of_shut (items : List α) (st : Step α) (now : Nat) :
    let d : Deed Nat Nat α := ⟨none, if st.takes then items.head? else none, false, []⟩
    d.pushReturns st now = (st.value?.map fun _ => .direct now false).toList ∧
      d.popReturns st now = if st.takes then [.direct now items.head?] else [] := by
  intro d
  cases st <;> exact ⟨rfl, rfl⟩

end moves

/-! ## Runs on a shut queue -/

section runs

variable {h : History α}

theorem History.Sound.next_of_shut (hs : h.Sound) (hc : h.queue.view.closed = true) (st : Step α) :
    (h.next st).queue.view.closed = true ∧ (h.next st).accepted = h.accepted ∧
      h.pushReturns st = (st.value?.map fun _ => .direct h.steps.length false).toList ∧
      h.popReturns st =
        if st.takes then [.direct h.steps.length h.queue.view.items.head?] else [] := by
  obtain ⟨hd, hclosed, -, -⟩ := (hs.moves st).of_shut hs.settled hc
  obtain ⟨hpushes, hpops⟩ := returns_of_shut h.queue.view.items st h.steps.length
  refine ⟨hclosed, ?_, ?_, ?_⟩
  · rw [accepted_next, hd]
    exact List.append_nil _
  · rw [History.pushReturns, hd, hpushes]
  · rw [History.popReturns, hd, hpops]

/-- **Nothing more is accepted by a shut queue**, and every push returns at once without success. -/
theorem History.Sound.extend_of_shut (hs : h.Sound) (hc : h.queue.view.closed = true)
    (after : List (Step α)) :
    (h.extend after).queue.view.closed = true ∧ (h.extend after).accepted = h.accepted ∧
      h.gather History.pushReturns after =
        (pushesOf after).map fun p => .direct (h.steps.length + p.1) false := by
  induction after using List.reverseRecOn with
  | nil => exact ⟨hc, rfl, rfl⟩
  | append_singleton after st ih =>
    obtain ⟨hclosed, haccepted, hpushes⟩ := ih
    obtain ⟨hclosed', haccepted', hpushes', -⟩ := (hs.extend after).next_of_shut hclosed st
    rw [extend_concat, gather_concat, pushesOf_concat, List.map_append]
    refine ⟨hclosed', haccepted'.trans haccepted, ?_⟩
    rw [hpushes, hpushes', steps_extend, List.length_append]
    cases st.value? <;> rfl

/-- **A shut queue gives out what it holds, in order, and then nothing for ever**, unless it is
closed in between. -/
theorem History.Sound.pops_of_shut (hs : h.Sound) (hc : h.queue.view.closed = true)
    (after : List (Step α)) (hkeep : .close ∉ after ∨ h.queue.view.items = []) :
    (h.extend after).queue.view.items = h.queue.view.items.drop (popsOf after).length ∧
      h.gather History.popReturns after =
        (popsOf after).mapIdx fun k i => .direct (h.steps.length + i) h.queue.view.items[k]? := by
  induction after using List.reverseRecOn with
  | nil => exact ⟨rfl, rfl⟩
  | append_singleton after st ih =>
    obtain ⟨hitems, hpops⟩ := ih (hkeep.imp_left fun hno hmem => hno (List.mem_append_left _ hmem))
    have hlater := hs.extend after
    have hclosed := (hs.extend_of_shut hc after).1
    obtain ⟨-, -, hkept, hnone⟩ := (hlater.moves st).of_shut hlater.settled hclosed
    obtain ⟨-, -, -, hpops'⟩ := hlater.next_of_shut hclosed st
    rw [extend_concat, gather_concat, popsOf_concat, hpops, hpops', steps_extend, hitems,
      List.length_append]
    have hleft : ((h.extend after).next st).queue.view.items =
        if st.takes then (h.extend after).queue.view.items.tail
        else (h.extend after).queue.view.items := by
      rcases hkeep with hno | hnil
      · exact hkept fun heq => hno (by simp [heq])
      · have hnil' : (h.extend after).queue.view.items = [] := by simp [hitems, hnil]
        rw [hnone hnil', hnil']
        simp
    rw [hleft, hitems]
    by_cases ht : st.takes = true
    · simp [ht, List.mapIdx_concat, List.head?_drop]
    · simp [ht]

/-! ## Runs in which a queue is shut -/

theorem History.Sound.next_shuts (hs : h.Sound) {stop : Step α} (hstop : stop.shuts = true) :
    (h.next stop).queue.view.closed = true ∧ (h.next stop).accepted = h.accepted ∧
      h.pushReturns stop =
        h.queue.pushers.toList.map (fun p => ⟨p.1, h.steps.length, false⟩) ∧
      h.popReturns stop = h.queue.poppers.toList.map (⟨·, h.steps.length, none⟩) := by
  obtain ⟨hd, hclosed, -, -⟩ := (hs.moves stop).shuts hs.settled hstop
  obtain ⟨hpushes, hpops⟩ := returns_dismissed h.queue.view hstop h.steps.length
  refine ⟨hclosed, ?_, ?_, ?_⟩
  · rw [accepted_next, hd, (values_dismissed _ _).1]
    exact List.append_nil _
  · rw [History.pushReturns, hd, hpushes]
    rfl
  · rw [History.popReturns, hd, hpops]
    rfl

theorem history_cons (capacity : Nat) (steps : List (Step α)) (st : Step α)
    (after : List (Step α)) :
    history capacity (steps ++ st :: after) = ((history capacity steps).next st).extend after :=
  history_append ..

theorem pushReturns_shut (capacity : Nat) (steps : List (Step α)) {stop : Step α}
    (hstop : stop.shuts = true) (after : List (Step α)) :
    pushReturns capacity (steps ++ stop :: after) =
      pushReturns capacity steps ++
        (history capacity steps).queue.pushers.toList.map (fun p => ⟨p.1, steps.length, false⟩) ++
        (pushesOf after).map fun p => .direct (steps.length + 1 + p.1) false := by
  have hs : (history capacity steps).Sound := sound_history capacity steps
  obtain ⟨hclosed, -, hreleased, -⟩ := hs.next_shuts hstop
  obtain ⟨-, -, hrefused⟩ := (hs.next stop).extend_of_shut hclosed after
  rw [length_history] at hreleased
  rw [← history_concat, length_history, List.length_append, List.length_singleton] at hrefused
  rw [pushReturns_append, History.gather, hreleased, ← history_concat, hrefused, List.append_assoc]

/-- **Every pop that waits is sent away**, and the later ones share what the queue still holds. -/
theorem popReturns_shut (capacity : Nat) (steps : List (Step α)) {stop : Step α}
    (hstop : stop.shuts = true) {items : List α}
    (hitems : ((history capacity steps).next stop).queue.view.items = items)
    (after : List (Step α)) (hkeep : .close ∉ after ∨ items = []) :
    popReturns capacity (steps ++ stop :: after) =
      popReturns capacity steps ++
        (history capacity steps).queue.poppers.toList.map (⟨·, steps.length, none⟩) ++
        (popsOf after).mapIdx fun k i => .direct (steps.length + 1 + i) items[k]? := by
  have hs : (history capacity steps).Sound := sound_history capacity steps
  obtain ⟨hclosed, -, -, hreleased⟩ := hs.next_shuts hstop
  subst hitems
  obtain ⟨-, hgiven⟩ := (hs.next stop).pops_of_shut hclosed after hkeep
  rw [length_history] at hreleased
  rw [← history_concat, length_history, List.length_append, List.length_singleton] at hgiven
  rw [popReturns_append, History.gather, hreleased, ← history_concat, hgiven, List.append_assoc]

theorem shut_history (capacity : Nat) (steps : List (Step α)) {stop : Step α}
    (hstop : stop.shuts = true) (after : List (Step α)) :
    let later := history capacity (steps ++ stop :: after)
    later.queue.isClosed = true ∧ later.accepted = (history capacity steps).accepted := by
  have hs : (history capacity steps).Sound := sound_history capacity steps
  obtain ⟨hclosed, haccepted, -, -⟩ := hs.next_shuts hstop
  obtain ⟨hclosed', haccepted', -⟩ := (hs.next stop).extend_of_shut hclosed after
  rw [history_cons]
  exact ⟨hclosed', haccepted'.trans haccepted⟩

/-! ## Main statement -/

/-- **A queue that has been shut stays shut.**

Closing or retiring a queue, in whatever state, makes every push that waits return without success
and every pop that waits return without a value; none of these pushes had been let in before. From
then on nothing is accepted and every push returns without success at once; one that does not wait
gives its value back, and the reason is that the queue is shut, even if it is also full. The pops
after retiring a queue get the values that it held, in order, and then nothing for ever, until it is
closed; the pops after a close get nothing. The order in which a queue is closed and retired does
not matter, nor how often. -/
theorem shutting_is_final (capacity : Nat) (steps : List (Step α)) :
    let q := (history capacity steps).queue
    let now := steps.length
    (∀ stop : Step α, stop.shuts = true → ∀ after : List (Step α),
      let later := history capacity (steps ++ stop :: after)
      pushReturns capacity (steps ++ stop :: after) =
        pushReturns capacity steps ++ q.pushers.toList.map (fun p => ⟨p.1, now, false⟩) ++
          (pushesOf after).map (fun p => .direct (now + 1 + p.1) false) ∧
      (∀ p ∈ q.pushers.toList, ∀ r ∈ pushReturns capacity steps, r.call ≠ p.1) ∧
      later.accepted = (history capacity steps).accepted ∧
      (∀ caller v, (later.queue.push caller v).result = .returned false) ∧
      ∀ v, (later.queue.tryPush v).result = .error ⟨.closed, v⟩) ∧
    (∀ after : List (Step α), .close ∉ after →
      popReturns capacity (steps ++ .retire :: after) =
        popReturns capacity steps ++ q.poppers.toList.map (⟨·, now, none⟩) ++
          (popsOf after).mapIdx fun k i => .direct (now + 1 + i) q.buffer.items.toList[k]?) ∧
    (∀ after : List (Step α),
      popReturns capacity (steps ++ .close :: after) =
        popReturns capacity steps ++ q.poppers.toList.map (⟨·, now, none⟩) ++
          (popsOf after).map fun i => .direct (now + 1 + i) none) ∧
    ∀ q : Queue Nat Nat α,
      q.retire.queue.close.queue = q.close.queue ∧ q.close.queue.retire.queue = q.close.queue ∧
        q.close.queue.close.queue = q.close.queue ∧
        q.retire.queue.retire.queue = q.retire.queue := by
  intro q now
  have hs : (history capacity steps).Sound := sound_history capacity steps
  refine ⟨fun stop hstop after => ?shut, fun after hno => ?retired, fun after => ?closed,
    fun q => ⟨retire_close q, close_retire q, close_close q, retire_retire q⟩⟩
  case shut =>
    obtain ⟨hclosed, haccepted⟩ := shut_history capacity steps hstop after
    refine ⟨pushReturns_shut capacity steps hstop after,
      fun p hp => not_returned_of_waiting capacity steps hp, haccepted, ?_, ?_⟩
    · intro caller v
      rw [push_of_shut hclosed]
    · intro v
      rw [tryPush_of_shut hclosed]
  case retired =>
    have hstop : (Step.retire : Step α).shuts = true := rfl
    obtain ⟨-, -, hkept, -⟩ := (hs.moves .retire).shuts hs.settled hstop
    exact popReturns_shut capacity steps hstop (hkept rfl) after (Or.inl hno)
  case closed =>
    have hstop : (Step.close : Step α).shuts = true := rfl
    obtain ⟨-, -, -, hdiscarded⟩ := (hs.moves .close).shuts hs.settled hstop
    have hnothing : ((popsOf after).mapIdx fun k i =>
        (.direct (now + 1 + i) ([] : List α)[k]? : Return (Option α))) =
        (popsOf after).map fun i => .direct (now + 1 + i) none :=
      List.ext_getElem (by simp) (by simp)
    rw [← hnothing]
    exact popReturns_shut capacity steps hstop (hdiscarded rfl) after (Or.inr rfl)

/-- A push waits in a full queue that is retired. What the queue held is given out once. -/
example :
    let steps := [.push 'a', .push 'b', .retire, .tryPop, .push 'c', .pop]
    pushReturns 1 steps = [.direct 0 true, ⟨1, 2, false⟩, .direct 4 false] ∧
      popReturns 1 steps = [.direct 3 (some 'a'), .direct 5 none] := by
  decide

end runs

end Switchboard.Queue
