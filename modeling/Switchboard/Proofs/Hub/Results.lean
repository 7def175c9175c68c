import Switchboard.Proofs.Hub.Published
import Switchboard.Proofs.Hub.Serving

/-!
# Results and counters

What a publish returns, and what the counters of a hub say after any run.

**Reliable hubs.** A publish reaches every subscription that is registered at its call, but for
those that are cut off, or whose hub closes, before their buffers took the value. Nothing is dropped.

**Lossy hubs.** A publish returns at once. With every subscription it meets, one more value is taken
or dropped.

**Main statement** (`publishes_are_counted`). The results of all publishes and the counters of the
hub, after any run.
-/

namespace Switchboard.Hub

variable {π ρ α β : Type}

/-! ## A publish on a lossy hub -/

/-- How far a publish on a lossy hub has come: with each of `n` targets it came to one more value
was taken or dropped. -/
structure Served (n : Nat) (r r' : Progress π ρ α) : Prop where
  parked : r'.parked = false
  sound : r'.hub.Sound
  lossy : r'.hub.policy = .lossy
  closed : r'.hub.closed = r.hub.closed
  registered : r'.hub.registered = r.hub.registered
  total : r'.accepted + r'.hub.dropped = r.accepted + r.hub.dropped + n

section lossy

variable {h : Hub π ρ α} {r r' r'' : Progress π ρ α} {m n : Nat}

theorem Served.trans (h₁ : Served m r r') (h₂ : Served n r' r'') : Served (m + n) r r'' where
  parked := h₂.parked
  sound := h₂.sound
  lossy := h₂.lossy
  closed := h₂.closed.trans h₁.closed
  registered := h₂.registered.trans h₁.registered
  total := by rw [h₂.total, h₁.total]; omega

theorem Served.subscriberCount (h : Served n r r') :
    r'.hub.subscriberCount = r.hub.subscriberCount :=
  congrArg List.length h.registered

theorem visit_served (q : Publication π α) (ids : List SubscriptionId) (hs : r.hub.Sound)
    (hpol : r.hub.policy = .lossy) (hr : r.parked = false) :
    Served (ids.filter (r.hub.registered.contains ·)).length r (visit q ids r) := by
  induction ids generalizing r with
  | nil => exact ⟨hr, hs, hpol, rfl, rfl, rfl⟩
  | cons id ahead ih =>
    set traveller : Publication π α := { q with ahead, accepted := r.accepted }
    by_cases hshut : ∀ p, r.hub.pipeline? id = some p → p.isOpen = false
    · have hnot : id ∉ r.hub.registered := fun hreg =>
        not_registered_iff.mpr hshut (hs.mem_registered.mp hreg)
      rw [List.filter_cons_of_neg (by simpa using hnot), visit, offer_of_shut traveller hshut]
      exact ih hs hpol hr
    · push Not at hshut
      obtain ⟨p, hp, hopen⟩ := hshut
      replace hopen : p.isOpen = true := by simpa using hopen
      have hreg : id ∈ r.hub.registered := hs.mem_registered.mpr ⟨p, hp, hopen⟩
      rw [List.filter_cons_of_pos (by simpa using hreg), List.length_cons, Nat.add_comm]
      by_cases hroom : p.buffer.hasRoom = true
      · obtain ⟨p', received, hstore⟩ : ∃ p' received, p.store q.value = (p', received) :=
          ⟨_, _, rfl⟩
        rw [visit, offer_of_room (q := traveller) hp hopen hroom hstore]
        have hfirst : Served 1 r
            ⟨r.hub.setPipeline id p', r.accepted + 1, false, r.received ++ received⟩ :=
          { parked := rfl
            sound := hs.setPipeline hp ((hs.fits_of hp).store hroom hstore)
            lossy := hpol
            closed := rfl
            registered := registered_setPipeline hs hp
              (isOpen_of_store (hs.fits_of hp).settled hroom hstore)
            total := by show r.accepted + 1 + r.hub.dropped = _; omega }
        refine hfirst.trans ?_
        rw [← hfirst.registered]
        exact ih hfirst.sound hpol rfl
      · replace hroom : p.buffer.hasRoom = false := by simpa using hroom
        rw [visit, offer_of_full_lossy traveller hp hopen hroom hpol]
        have hfirst : Served 1 r { r with hub := { r.hub with dropped := r.hub.dropped + 1 } } :=
          { parked := hr
            sound := ⟨hs.nodup, hs.named, hs.fits⟩
            lossy := hpol
            closed := rfl
            registered := rfl
            total := rfl }
        exact hfirst.trans (ih hfirst.sound hpol hr)

theorem length_targets (hs : h.Sound) (order : List SubscriptionId) :
    ((h.targets order).filter (h.registered.contains ·)).length = h.subscriberCount := by
  have hall : (h.targets order).filter (h.registered.contains ·) = h.targets order :=
    List.filter_eq_self.mpr fun id hid => by simpa using mem_targets.mp hid
  have hreg : h.registered.Nodup := hs.nodup.sublist (List.filter_sublist.map _)
  rw [hall, Hub.subscriberCount]
  exact ((List.perm_ext_iff_of_nodup (nodup_targets hs order) hreg).mpr fun _ =>
    mem_targets).length_eq

theorem Sound.registered_of_closed (hs : h.Sound) (hc : h.closed = true) : h.registered = [] := by
  refine List.eq_nil_iff_forall_not_mem.mpr fun id hid => ?_
  obtain ⟨p, hp, hopen⟩ := hs.mem_registered.mp hid
  rw [Pipeline.isOpen, (hs.fits_of hp).shut hc] at hopen
  cases hopen

theorem publishEach_served (caller : π) (order : List SubscriptionId) (values : List α)
    (hs : r.hub.Sound) (hpol : r.hub.policy = .lossy) (hr : r.parked = false) :
    Served (values.length * r.hub.subscriberCount) r (publishEach caller order values r) := by
  by_cases hc : r.hub.closed = true
  · rw [(publishEach_of_closed caller order values hc).1, Hub.subscriberCount,
      hs.registered_of_closed hc]
    exact ⟨hr, hs, hpol, rfl, rfl, rfl⟩
  · induction values generalizing r with
    | nil => exact ⟨hr, hs, hpol, rfl, rfl, by rw [List.length_nil, Nat.zero_mul]; rfl⟩
    | cons v later ih =>
      set hub : Hub π ρ α := { r.hub with published := r.hub.published + 1 } with hhub
      have hfirst : Served r.hub.subscriberCount r
          (visit ⟨caller, order, v, [], 0, later⟩ (hub.targets order) { r with hub }) := by
        have hvisit := visit_served (r := { r with hub }) ⟨caller, order, v, [], 0, later⟩
          (hub.targets order) ⟨hs.nodup, hs.named, hs.fits⟩ hpol hr
        rw [length_targets (h := hub) ⟨hs.nodup, hs.named, hs.fits⟩ order] at hvisit
        exact ⟨hvisit.parked, hvisit.sound, hvisit.lossy, hvisit.closed, hvisit.registered,
          hvisit.total⟩
      have hrest := ih hfirst.sound hfirst.lossy hfirst.parked (by rwa [hfirst.closed])
      rw [publishEach, if_neg hc, ← hhub]
      simp only [hfirst.parked, Bool.false_eq_true, if_false]
      rw [hfirst.subscriberCount] at hrest
      rw [List.length_cons, Nat.succ_mul, Nat.add_comm]
      exact hfirst.trans hrest

/-- **A publish on a lossy hub returns at once**, and what it returns and what it drops are together
as many values as the subscribers it met. -/
theorem Lossy.publishAll_counted (hl : h.Lossy) (caller : π) (order : List SubscriptionId)
    (values : List α) :
    ∃ n, (h.publishAll caller order values).result = .returned n ∧
      n + (h.publishAll caller order values).hub.dropped =
        h.dropped + values.length * h.subscriberCount := by
  have hserved := publishEach_served (r := ⟨h, 0, false, []⟩) caller order values hl.sound hl.lossy
    rfl
  refine ⟨(publishEach caller order values ⟨h, 0, false, []⟩).accepted, ?_, ?_⟩
  · rw [Hub.publishAll, hserved.parked]
    rfl
  · exact hserved.total.trans (by rw [Nat.zero_add])

end lossy

/-! ## Steps that publish -/

/-- What a step asks to be published: the subscriptions that each value visits first, and the
values. -/
def Step.request : Step α → Option (List SubscriptionId × List α)
  | publish order v => some (order, [v])
  | burst order vs => some (order, vs)
  | subscribe _ | receive _ | tryReceive _ | drain _ | cancel _ | abandon _ | close | disown => none

/-- The number of values that a step asks to be published. -/
def Step.size (s : Step α) : Nat := (s.request.map (·.2.length)).getD 0

section steps

variable {h : Hub Nat Nat α} {call : Nat} {s : Step α} {order : List SubscriptionId} {vs : List α}

theorem Step.act_of_request (hr : s.request = some (order, vs)) :
    s.act h call = h.byOwner ((h.publishAll call order vs).map .published) ∧
      s.log h call = if h.owned then h.publishAllLog call order vs else [] := by
  cases s with
  | publish order' v =>
    obtain ⟨rfl, rfl⟩ := Prod.mk.inj (Option.some.inj hr)
    exact ⟨rfl, rfl⟩
  | burst order' vs' =>
    obtain ⟨rfl, rfl⟩ := Prod.mk.inj (Option.some.inj hr)
    exact ⟨rfl, rfl⟩
  | _ => cases hr

theorem Step.size_of_request (hr : s.request = some (order, vs)) : s.size = vs.length := by
  rw [size, hr]
  rfl

theorem Step.callsIn_of_no_request (hr : s.request = none) : callsIn (s.log h call) = [] := by
  rcases s.callsIn_log h call with hnone | ⟨-, ⟨order, v, rfl⟩ | ⟨order, vs, rfl⟩⟩
  · exact hnone
  · cases hr
  · cases hr

/-- A step on a lossy hub: what it reports and what is dropped in it are as many values as the
subscribers that its values meet. -/
theorem Step.lossy_counted (hl : h.Lossy) (call : Nat) (s : Step α) :
    ((s.reports h call).map (·.2)).sum + (s.act h call).hub.dropped =
      h.dropped + s.size * h.subscriberCount := by
  cases hr : s.request with
  | some request =>
    obtain ⟨order, vs⟩ := request
    have hact : s.act h call = _ := (Step.act_of_request hr).1
    rw [Step.size_of_request hr, reports, hact, byOwner]
    by_cases ho : h.owned = true
    · obtain ⟨n, hresult, hcount⟩ := hl.publishAll_counted call order vs
      have hnone : (h.publishAll call order vs).returned = [] := rfl
      simp only [if_pos ho, Reply.reports, Reply.map, hresult, hnone]
      simpa using hcount
    · rw [if_neg ho, subscriberCount,
        hl.sound.registered_of_closed (hl.closed_of_disowned (by simpa using ho))]
      exact Nat.zero_add _
  | none =>
    have hidle : standings ⟨h, []⟩ = [] := by
      rw [standings, flight, hl.calm.idle]
      rfl
    have hturns : Turns ⟨h, []⟩ (s.log h call) _ := s.turns hl.toGood
    obtain ⟨-, hret, hcounts⟩ := hturns.idle hl.sound hidle (Step.callsIn_of_no_request hr)
    have hdropped : (s.act h call).hub.dropped = h.dropped := congrArg Prod.snd hcounts
    rw [(Step.reply h call s).2, hret, hdropped, size, hr]
    simp

/-- What a step asks of an open hub. -/
def Step.asked (h : Hub Nat Nat α) (s : Step α) : Nat :=
  if h.owned && !h.closed then s.size else 0

/-- What is given up when the owner closes the hub. -/
def Step.givenUp (h : Hub Nat Nat α) : Step α → Nat
  | close => if h.owned then h.left else 0
  | subscribe _ | publish _ _ | burst _ _ | receive _ | tryReceive _ | drain _ | cancel _
  | abandon _ | disown => 0

theorem Step.sent_of_request (hg : h.Good) (hr : s.request = some (order, vs)) :
    (s.act h call).hub.sent = h.sent + s.asked h := by
  rw [(Step.act_of_request hr).1, byOwner, asked, Step.size_of_request hr]
  by_cases ho : h.owned = true
  · rw [if_pos ho, ho, Bool.true_and]
    show (h.publishAll call order vs).hub.sent = _
    by_cases hc : h.closed = true
    · rw [publishAll, (publishEach_of_closed (r := ⟨h, 0, false, []⟩) call order vs hc).1, hc]
      rfl
    · have hc' : h.closed = false := by simpa using hc
      rw [hc', Bool.not_false, if_pos rfl]
      cases vs with
      | nil => rfl
      | cons v later =>
        obtain ⟨log, -, hmoves⟩ := publishAll_moves hc' call order v later
        have hclosed : (h.publishAll call order (v :: later)).hub.closed = false :=
          (publishEach_closed call order (v :: later) ⟨h, 0, false, []⟩).trans hc'
        have hpub := (hmoves.turns.published ⟨hg.sound.nodup, hg.sound.named, hg.sound.fits⟩
          hmoves.callsIn).1 hclosed
        have hstart : unsent (⟨{ h with published := h.published + 1 },
            [⟨call, order, v, h.targets order, 0, later⟩]⟩ : Scene Nat Nat α) =
              later.length + h.left := by
          rw [← unsent_eq]
          rfl
        rw [unsent_eq, hstart] at hpub
        rw [sent, sent, List.length_cons]
        exact hpub.trans (by show h.published + 1 + _ = _; omega)
  · rw [if_neg ho, Bool.eq_false_iff.mpr ho]
    rfl

/-- **What a step does to the values published or left.** -/
theorem Step.sent (hg : h.Good) (call : Nat) (s : Step α) :
    (s.act h call).hub.sent + s.givenUp h = h.sent + s.asked h := by
  have hs := hg.sound
  cases hr : s.request with
  | some request =>
    obtain ⟨order, vs⟩ := request
    -- A step that asks for values to be published gives none up.
    have hnone : s.givenUp h = 0 := by cases s <;> first | rfl | cases hr
    rw [hnone, Step.sent_of_request hg hr]
    rfl
  | none =>
    have hasked : s.asked h = 0 := by rw [asked, size, hr]; exact ite_self _
    rw [hasked, Nat.add_zero]
    have hbusy : ∀ {id : SubscriptionId} {reply : Reply Nat Nat α (Answer α)},
        reply.hub.sent = h.sent → (h.unlessBusy id reply).hub.sent = h.sent := by
      intro id reply hsent
      unfold unlessBusy
      split
      · rfl
      · exact hsent
    cases s with
    | subscribe n =>
      have hsame : (h.subscribe n).1.sent = h.sent := by
        unfold Hub.subscribe
        split
        · rfl
        · refine sent_of_parked rfl ?_
          rw [parkedPublications, register, List.flatMap_append]
          exact List.append_nil _
      simp only [act, byOwner]
      split
      · exact hsame
      · rfl
    | receive id => exact hbusy (receive_sent hs id call)
    | tryReceive id => exact hbusy (tryReceive_sent hs id)
    | drain id => exact hbusy (drainUpTo_sent id _ [] _ hs)
    | cancel id => exact cancel_sent hs id
    | abandon id => exact hbusy (abandon_sent hs id)
    | close =>
      simp only [act, byOwner, givenUp]
      split
      · exact close_sent hs
      · rfl
    | disown =>
      simp only [act, byOwner]
      split
      · exact disown_sent hs
      · rfl
    | publish order v => cases hr
    | burst order vs => cases hr

end steps

/-! ## Runs -/

/-- A sum over some steps, each of them with the hub that it finds. -/
def Run.tally (f : Hub Nat Nat α → Step α → Nat) (r : Run α) : List (Step α) → Nat
  | [] => 0
  | s :: rest => f r.hub s + (r.next s).tally f rest

/-- A sum over the steps of a run, each of them with the hub that it finds. -/
def tally (f : Hub Nat Nat α → Step α → Nat) (label : String) (policy : Policy)
    (steps : List (Step α)) : Nat :=
  Run.tally f ⟨.new label policy, 0, []⟩ steps

section runs

variable {r : Run α}

theorem Run.tally_eq_zero {f : Hub Nat Nat α → Step α → Nat} {steps : List (Step α)}
    (hzero : ∀ before s after, steps = before ++ s :: after → f (r.extend before).hub s = 0) :
    r.tally f steps = 0 := by
  induction steps generalizing r with
  | nil => rfl
  | cons s rest ih =>
    have hfirst : f r.hub s = 0 := hzero [] s rest rfl
    have hrest : (r.next s).tally f rest = 0 := ih fun before s' after heq =>
      hzero (s :: before) s' after (by rw [heq, List.cons_append])
    rw [Run.tally, hfirst, hrest]

theorem Run.lossy_counted (hl : r.hub.Lossy) (steps : List (Step α)) :
    (r.extend steps).hub.Lossy ∧
      ((r.reports steps).map (·.2)).sum + (r.extend steps).hub.dropped =
        r.hub.dropped + r.tally (fun h s => s.size * h.subscriberCount) steps := by
  induction steps generalizing r with
  | nil => exact ⟨hl, Nat.zero_add _⟩
  | cons s rest ih =>
    have hstep := Step.lossy_counted hl r.calls s
    obtain ⟨hl', hrest⟩ := ih (r := r.next s) (Step.lossy hl s)
    refine ⟨hl', ?_⟩
    rw [Run.reports, List.map_append, List.sum_append, Run.extend_cons, Nat.add_assoc, hrest,
      Run.tally]
    simp only [Run.next] at hstep ⊢
    omega

theorem Run.sent (hg : r.hub.Good) (steps : List (Step α)) :
    (r.extend steps).hub.sent + r.tally (fun h s => s.givenUp h) steps =
      r.hub.sent + r.tally (fun h s => s.asked h) steps := by
  induction steps generalizing r with
  | nil => rfl
  | cons s rest ih =>
    have hstep := Step.sent hg r.calls s
    have hrest := ih (r := r.next s) (Step.good hg s)
    simp only [Run.tally, Run.extend_cons, Run.next] at hstep hrest ⊢
    omega

end runs

section results

variable {label : String} {policy : Policy} {steps : List (Step α)} {k n : Nat}

theorem nodup_results (label : String) (policy : Policy) (steps : List (Step α)) :
    ((results label policy steps).map (·.1)).Nodup := by
  have hperm := run_callers_perm label policy steps
  rw [returnsIn_run] at hperm
  exact (List.nodup_append.mp (hperm.nodup_iff.mp (run_turns label policy steps).2.2)).2.1

theorem sum_of_nodup {results : List (Nat × Nat)} (hn : (results.map (·.1)).Nodup)
    (hk : (k, n) ∈ results) : (results.map fun r => if r.1 = k then r.2 else 0).sum = n := by
  induction results with
  | nil => cases hk
  | cons r rest ih =>
    rw [List.map_cons, List.nodup_cons] at hn
    rw [List.map_cons, List.sum_cons]
    rcases List.mem_cons.mp hk with rfl | hk
    · have hzero : (rest.map fun r => if r.1 = k then r.2 else 0).sum = 0 := by
        refine List.sum_eq_zero fun x hx => ?_
        obtain ⟨r, hr, rfl⟩ := List.mem_map.mp hx
        exact if_neg fun heq => hn.1 (List.mem_map.mpr ⟨r, hr, heq⟩)
      rw [hzero, if_pos rfl, Nat.add_zero]
    · have hne : r.1 ≠ k := fun heq => hn.1 (List.mem_map.mpr ⟨(k, n), hk, heq.symm⟩)
      rw [if_neg hne, ih hn.2 hk, Nat.zero_add]

/-- **A publish returns the number of buffers that took its values.** -/
theorem length_acceptors (hk : (k, n) ∈ results label policy steps) :
    n = (acceptors k (run label policy steps).log).length := by
  have hcredit := (run_turns label policy steps).1.credit k (sound_new label policy)
  have hstart : credit k (standings (⟨new label policy, []⟩ : Scene Nat Nat α)) = 0 := rfl
  have hend : credit k (standings ⟨(run label policy steps).hub, []⟩) = 0 := by
    have hidle := (not_mem_callers_of_returned label policy steps (mem_results.mp hk)).1
    refine List.sum_eq_zero fun x hx => ?_
    obtain ⟨y, hy, rfl⟩ := List.mem_map.mp hx
    obtain ⟨q, hq, rfl⟩ := List.mem_map.mp hy
    exact if_neg fun heq => hidle (List.mem_map.mpr ⟨q, hq, heq⟩)
  have hearned : earned k (run label policy steps).log = n := by
    rw [earned, returnsIn_run]
    exact sum_of_nodup (nodup_results label policy steps) hk
  omega

theorem mem_acceptors {log : List (Event Nat Nat α)} {S : SubscriptionId} :
    S ∈ acceptors k log ↔ (S, k) ∈ storesIn log := by
  simp only [acceptors, List.mem_filterMap, Prod.exists]
  constructor
  · rintro ⟨i, c, hmem, heq⟩
    split at heq
    · rename_i hc
      obtain rfl : i = S := Option.some.inj heq
      obtain rfl : c = k := hc
      exact hmem
    · cases heq
  · exact fun hmem => ⟨S, k, hmem, if_pos rfl⟩

theorem count_acceptors (log : List (Event Nat Nat α)) (S : SubscriptionId) :
    (acceptors k log).count S = (storesIn log).count (S, k) := by
  rw [acceptors]
  induction storesIn log with
  | nil => rfl
  | cons e rest ih =>
    obtain ⟨i, c⟩ := e
    rw [List.filterMap_cons, List.count_cons, ← ih]
    by_cases hc : c = k
    · simp [hc, List.count_cons]
    · simp [hc]

/-- A publish of one value is taken once at most by each subscription, and only by those registered
at its call. -/
theorem acceptors_of_publish {order : List SubscriptionId} {v : α}
    (hk : steps[k]? = some (.publish order v)) :
    (acceptors k (run label policy steps).log).Nodup ∧
      ∀ S ∈ acceptors k (run label policy steps).log,
        S ∈ (run label policy (steps.take k)).hub.registered := by
  have hcount : ∀ S, (storesIn (run label policy steps).log).count (S, k) ≤ _ := fun S =>
    Nat.le_trans (Nat.le_add_left ..) ((stored_of_step label policy hk).1 S)
  refine ⟨List.nodup_iff_count_le_one.mpr fun S => ?_, fun S hS => ?_⟩
  · rw [count_acceptors]
    refine Nat.le_trans (hcount S) ?_
    split
    · exact Nat.le_refl 1
    · exact Nat.zero_le 1
  · by_contra hreg
    have := hcount S
    rw [if_neg hreg, Nat.le_zero, ← count_acceptors] at this
    exact List.count_eq_zero.mp this hS

theorem not_mem_acceptors_of_parked {order : List SubscriptionId} {v : α}
    {q : Publication Nat α} {S : SubscriptionId}
    (hk : steps[q.caller]? = some (.publish order v))
    (hq : q ∈ (run label policy steps).hub.parkedOn S) :
    S ∉ acceptors q.caller (run label policy steps).log := by
  have hdue := due_pos_of_parked hq
  have hle := (stored_of_step label policy hk).1 S
  have hone : (if S ∈ (run label policy (steps.take q.caller)).hub.registered then 1 else 0) ≤ 1 := by
    split
    · exact Nat.le_refl 1
    · exact Nat.zero_le 1
  rw [← List.count_eq_zero, count_acceptors]
  omega

theorem run_between (label : String) (policy : Policy) (steps : List (Step α)) {i j : Nat}
    (hij : i ≤ j) :
    ∃ log, (run label policy (steps.take j)).log = (run label policy (steps.take i)).log ++ log ∧
      Turns ⟨(run label policy (steps.take i)).hub, []⟩ log
        ⟨(run label policy (steps.take j)).hub, []⟩ := by
  have hsplit : steps.take j = steps.take i ++ (steps.take j).drop i := by
    have := List.take_append_drop i (steps.take j)
    rw [List.take_take, Nat.min_eq_left hij] at this
    exact this.symm
  obtain ⟨-, log, hlog, hturns, -⟩ :=
    Run.extend_turns (run_good label policy (steps.take i)) ((steps.take j).drop i)
  rw [hsplit, run_append]
  exact ⟨log, hlog, hturns⟩

/-- **A publish on a reliable hub has reached every target** by the time it returns, unless the
target is not registered any more. -/
theorem reached_of_results (hpol : policy = .reliable) {order : List SubscriptionId} {v : α}
    (hk : steps[k]? = some (.publish order v)) (hret : (k, n) ∈ results label policy steps)
    {S : SubscriptionId} (hS : S ∈ (run label policy (steps.take k)).hub.registered) :
    S ∈ acceptors k (run label policy steps).log ∨ S ∉ (run label policy steps).hub.registered := by
  obtain ⟨hidle, hcalled⟩ :=
    not_mem_callers_of_returned label policy steps (mem_results.mp hret)
  obtain ⟨-, hcalls, hrun⟩ := exists_run_split label policy hk
  have hgood := run_good label policy (steps.take k)
  have hpolicy := (run_turns label policy (steps.take k)).1.policy.trans hpol
  have hown := call_of_step hk hcalled
  set before := run label policy (steps.take k)
  have ho : before.hub.owned = true := by
    by_contra ho
    simp [Step.log, ho, callsIn] at hown
  have hc : before.hub.closed = false := by
    by_contra hc
    rw [hgood.sound.registered_of_closed (by simpa using hc)] at hS
    cases hS
  obtain ⟨log, hlog, hmoves⟩ := Step.publish_moves ho hc k order v
  obtain ⟨-, later, hlog', hturns, -⟩ := Run.extend_turns (r := before.next (.publish order v))
    (Step.good hgood _) (steps.drop (k + 1))
  rw [← Run.extend_cons, ← hrun] at hlog' hturns
  simp only [Run.next, hcalls] at hlog' hturns
  have hall := hmoves.turns.trans hturns
  obtain ⟨p, hp, -⟩ := hgood.sound.mem_registered.mp hS
  have howes : Owes k S _ ∨ (S, k) ∈ _ ∨ S ∉ _ := Turns.owes hall
    ⟨hgood.sound.nodup, hgood.sound.named, hgood.sound.fits⟩ hpolicy
    (hgood.sound.named _ (mem_of_pipeline? hp)).2
    (.moving (List.mem_singleton.mpr rfl) rfl (mem_targets.mpr hS))
  -- As long as the publish owes `S` its value it is under way, but it has returned.
  rcases howes with ⟨q, togo, hq, hqk, -⟩ | hst | hreg
  · exact absurd (List.mem_map.mpr ⟨q, hq.mem_flight, hqk⟩) hidle
  · refine Or.inl (mem_acceptors.mpr ?_)
    rw [hlog', hlog, List.append_assoc, storesIn_append]
    exact List.mem_append_right _ hst
  · exact Or.inr hreg

/-- A publish has lost a target: since its call the subscription was cut off, or the hub has closed,
and the value had not been taken there. -/
def Lost (k : Nat) (S : SubscriptionId) (before later : Run α) : Prop :=
  (CutIn S (later.log.drop before.log.length) ∨ later.hub.closed = true) ∧
    S ∉ acceptors k later.log

theorem not_mem_acceptors_of_lost {S : SubscriptionId}
    (hS : S ∈ (run label policy (steps.take k)).hub.registered) {j : Nat} (hkj : k ≤ j)
    (hj : j ≤ steps.length)
    (hlost : Lost k S (run label policy (steps.take k)) (run label policy (steps.take j))) :
    S ∉ acceptors k (run label policy steps).log := by
  obtain ⟨log, hlog, hturns⟩ := run_between label policy steps hkj
  obtain ⟨log', hlog', hturns'⟩ := run_between label policy steps hj
  rw [List.take_length] at hlog' hturns'
  have hs := (run_good label policy (steps.take k)).sound
  have hs' := (run_good label policy (steps.take j)).sound
  obtain ⟨hgone, hnot⟩ := hlost
  obtain ⟨p, hp, -⟩ := hs.mem_registered.mp hS
  have hreg : S ∉ (run label policy (steps.take j)).hub.registered := by
    rcases hgone with hcut | hc
    · rw [hlog, List.drop_left] at hcut
      exact mt hs'.mem_registered.mp ((hturns.account hs hp).cut hcut).1
    · rw [hs'.registered_of_closed hc]
      exact List.not_mem_nil
  have hid := Nat.le_trans (hs.named _ (mem_of_pipeline? hp)).2 hturns.lastId_le
  have hnone := hturns'.not_stored_at hs' hid hreg
  intro hmem
  rw [hlog', acceptors_append, List.mem_append] at hmem
  refine hmem.elim hnot fun hmem => ?_
  have hcount : (storesIn log').count (S, k) = 0 := by rw [← count_storedIn, hnone]; rfl
  exact List.count_eq_zero.mp hcount (mem_acceptors.mp hmem)

/-- **What a publish on a reliable hub returns**: the number of subscriptions registered at its
call, less those that were lost before they took the value. -/
theorem reliable_results (hpol : policy = .reliable) {order : List SubscriptionId} {v : α}
    (hk : steps[k]? = some (.publish order v)) (hret : (k, n) ∈ results label policy steps) :
    ∃ missed : List SubscriptionId, missed.Nodup ∧
      n + missed.length = (run label policy (steps.take k)).hub.subscriberCount ∧
      ∀ S, S ∈ missed ↔ S ∈ (run label policy (steps.take k)).hub.registered ∧
        ∃ j, k < j ∧ j ≤ steps.length ∧
          Lost k S (run label policy (steps.take k)) (run label policy (steps.take j)) := by
  have hs := (run_good label policy (steps.take k)).sound
  obtain ⟨hnodup, hsub⟩ : (acceptors k (run label policy steps).log).Nodup ∧ _ :=
    acceptors_of_publish hk
  have hlt : k < steps.length := (List.getElem?_eq_some_iff.mp hk).1
  set before := run label policy (steps.take k)
  set taken := acceptors k (run label policy steps).log with htaken
  have hreg : before.hub.registered.Nodup := hs.nodup.sublist (List.filter_sublist.map _)
  refine ⟨before.hub.registered.filter (! taken.contains ·), hreg.filter _, ?_, fun S => ?_⟩
  · have hperm : taken.Perm (before.hub.registered.filter (taken.contains ·)) := by
      refine (List.perm_ext_iff_of_nodup hnodup (hreg.filter _)).mpr fun S => ?_
      simp only [List.mem_filter, List.contains_eq_mem, decide_eq_true_eq]
      exact ⟨fun h => ⟨hsub S h, h⟩, fun h => h.2⟩
    rw [length_acceptors hret, ← htaken, hperm.length_eq, subscriberCount]
    exact (List.length_eq_length_filter_add _).symm
  · simp only [List.mem_filter, List.contains_eq_mem, Bool.not_eq_true', decide_eq_false_iff_not]
    refine and_congr_right fun hS => ⟨fun hnot => ⟨steps.length, hlt, Nat.le_refl _, ?_⟩, ?_⟩
    · obtain ⟨log, hlog, hturns⟩ := run_between label policy steps (Nat.le_of_lt hlt)
      rw [List.take_length] at hlog hturns ⊢
      refine ⟨?_, hnot⟩
      rw [hlog, List.drop_left]
      by_contra hkept
      rw [not_or] at hkept
      have hstays := hturns.registered hs hkept.1 (by simpa using hkept.2) hS
      exact (reached_of_results hpol hk hret hS).elim hnot fun h => h hstays
    · rintro ⟨j, hkj, hj, hlost⟩
      exact not_mem_acceptors_of_lost hS (Nat.le_of_lt hkj) hj hlost

theorem left_of_plain (hburst : ∀ order vs, .burst order vs ∉ steps) :
    (run label policy steps).hub.left = 0 := by
  have hplain : ∀ x ∈ standings (⟨(run label policy steps).hub, []⟩ : Scene Nat Nat α),
      x.later = [] := by
    induction steps using List.reverseRecOn with
    | nil => exact fun x hx => absurd hx List.not_mem_nil
    | append_singleton steps s ih =>
      have ih := ih fun order vs hmem => hburst order vs (List.mem_append_left _ hmem)
      have hgood := run_good label policy steps
      rw [run_append]
      set h := (run label policy steps).hub
      show ∀ x ∈ standings (⟨(s.act h (run label policy steps).calls).hub, []⟩ : Scene Nat Nat α),
        x.later = []
      cases hr : s.request with
      | none =>
        exact (s.turns hgood).plain hgood.sound (Step.callsIn_of_no_request hr) ih
      | some request =>
        cases s with
        | publish order v =>
          by_cases hopen : h.owned = true ∧ h.closed = false
          · obtain ⟨log, -, hmoves⟩ :=
              Step.publish_moves hopen.1 hopen.2 (run label policy steps).calls order v
            refine hmoves.turns.plain ⟨hgood.sound.nodup, hgood.sound.named, hgood.sound.fits⟩
              hmoves.callsIn fun x hx => ?_
            rcases List.mem_cons.mp hx with rfl | hx
            · rfl
            · exact ih x hx
          · rw [(Step.publish_idle hopen _ order v).1]
            exact ih
        | burst order vs =>
          exact absurd (List.mem_append_right _ (List.mem_singleton.mpr rfl)) (hburst order vs)
        | _ => cases hr
  rw [← unsent_eq, unsent]
  refine List.sum_eq_zero fun m hm => ?_
  obtain ⟨x, hx, rfl⟩ := List.mem_map.mp hm
  rw [hplain x hx]
  rfl

theorem Step.act_of_closed {h : Hub Nat Nat α} {call : Nat} {s : Step α}
    {request : List SubscriptionId × List α} (hr : s.request = some request)
    (ho : h.owned = true) (hc : h.closed = true) :
    s.act h call = ⟨h, .published (.returned 0), [], []⟩ := by
  obtain ⟨order, vs⟩ := request
  rw [(Step.act_of_request hr).1, byOwner, if_pos ho, Reply.map, publishAll,
    (publishEach_of_closed (r := ⟨h, 0, false, []⟩) call order vs hc).1]
  rfl

/-- **Publishes are counted.** Whatever a publish returns is the number of buffers that took its
values; those of a publish of one value belong to different subscriptions that were registered at its
call.

On a reliable hub nothing is dropped, and a publish of one value returns the number of subscriptions
at its call less those that it lost. On a lossy hub nothing is parked; a publish returns at once, and
with what is dropped in it the result makes up the subscribers it met, so the sums over the run agree
too.

A hub counts as published every value asked of it while it was open, but for those still left behind
a parked publish and those given up when its owner closed it; without bursts there are none of
these. A publish on a closed hub returns zero and changes nothing. -/
theorem publishes_are_counted (label : String) (policy : Policy) (steps : List (Step α)) :
    let r := run label policy steps
    (∀ k n, (k, n) ∈ results label policy steps → n = (acceptors k r.log).length) ∧
      (∀ k order v, steps[k]? = some (.publish order v) →
        (acceptors k r.log).Nodup ∧
          ∀ S ∈ acceptors k r.log, S ∈ (run label policy (steps.take k)).hub.registered) ∧
      (policy = .reliable → r.hub.dropped = 0 ∧
        ∀ k order v n, steps[k]? = some (.publish order v) →
          (k, n) ∈ results label policy steps →
          let before := run label policy (steps.take k)
          ∃ missed : List SubscriptionId, missed.Nodup ∧
            n + missed.length = before.hub.subscriberCount ∧
            ∀ S, S ∈ missed ↔ S ∈ before.hub.registered ∧ ∃ j, k < j ∧ j ≤ steps.length ∧
              Lost k S before (run label policy (steps.take j))) ∧
      (policy = .lossy → r.hub.parkedPublications = [] ∧
        (∀ k s order vs, steps[k]? = some s → s.request = some (order, vs) →
          let h := (run label policy (steps.take k)).hub
          h.owned = true → ∃ n, (s.act h k).result = .published (.returned n) ∧
            n + (s.act h k).hub.dropped = h.dropped + vs.length * h.subscriberCount) ∧
        ((results label policy steps).map (·.2)).sum + r.hub.dropped =
          tally (fun h s => s.size * h.subscriberCount) label policy steps) ∧
      r.hub.published + r.hub.left + tally (fun h s => s.givenUp h) label policy steps =
        tally (fun h s => s.asked h) label policy steps ∧
      ((∀ order vs, .burst order vs ∉ steps) →
        r.hub.published = tally (fun h s => s.asked h) label policy steps) ∧
      ∀ k s request, steps[k]? = some s → s.request = some request →
        let h := (run label policy (steps.take k)).hub
        h.owned = true → h.closed = true → s.act h k = ⟨h, .published (.returned 0), [], []⟩ := by
  intro r
  have hturns := (run_turns label policy steps).1
  have hsent := Run.sent (r := ⟨.new label policy, 0, []⟩) (good_new label policy) steps
  have hstart : (new label policy : Hub Nat Nat α).sent = 0 := rfl
  simp only [hstart, Nat.zero_add] at hsent
  refine ⟨fun k n hk => length_acceptors hk, fun k order v hk => acceptors_of_publish hk,
    fun hpol => ⟨hturns.dropped (sound_new label policy) hpol,
      fun k order v n hk hret => reliable_results hpol hk hret⟩,
    fun hpol => ?_, hsent, fun hburst => ?_,
    fun k s request _ hr ho hc => Step.act_of_closed hr ho hc⟩
  · have hlossy : ∀ steps : List (Step α), (run label policy steps).hub.Lossy := fun steps =>
      ⟨run_good label policy steps, (run_turns label policy steps).1.policy.trans hpol⟩
    refine ⟨(hlossy steps).calm.idle, fun k s order vs _ hr ho => ?_, ?_⟩
    · obtain ⟨n, hresult, hcount⟩ := (hlossy (steps.take k)).publishAll_counted k order vs
      rw [(Step.act_of_request hr).1, byOwner, if_pos ho]
      exact ⟨n, congrArg Answer.published hresult, hcount⟩
    · have hcounted := (Run.lossy_counted (r := ⟨.new label policy, 0, []⟩)
        ⟨good_new label policy, hpol⟩ steps).2
      exact hcounted.trans (Nat.zero_add _)
  · have hnone : tally (fun h s => s.givenUp h) label policy steps = 0 := by
      refine Run.tally_eq_zero fun before s after heq => ?_
      have hleft : (run label policy before).hub.left = 0 := left_of_plain fun order vs hmem =>
        hburst order vs (heq ▸ List.mem_append_left _ hmem)
      cases s with
      | close => exact (if_congr Iff.rfl hleft rfl).trans (ite_self 0)
      | _ => rfl
    have hleft : r.hub.left = 0 := left_of_plain hburst
    have hcount : r.hub.published + r.hub.left + tally (fun h s => s.givenUp h) label policy steps =
      tally (fun h s => s.asked h) label policy steps := hsent
    omega

/-- A publish that waits for one subscription goes on to the next when that is cancelled. -/
theorem publishes_are_counted_cancelled :
    let steps : List (Step Nat) :=
      [.subscribe 1, .subscribe 8, .publish [] 7, .publish [] 8, .publish [] 9, .publish [] 10,
        .cancel 1]
    let r := run "hub" .reliable steps
    (5, 1) ∈ results "hub" .reliable steps ∧ (acceptors 5 r.log).length = 1 ∧
      r.hub.dropped = 0 ∧ r.hub.published = 4 ∧
      ∃ missed : List SubscriptionId, 1 + missed.length = 2 ∧ 1 ∈ missed := by
  intro steps r
  have hret : (5, 1) ∈ results "hub" .reliable steps := by decide
  obtain ⟨hlength, -, hreliable, -, -, hpublished, -⟩ :=
    publishes_are_counted "hub" .reliable steps
  obtain ⟨hdropped, hmissed⟩ := hreliable rfl
  obtain ⟨missed, -, hcount, hmem⟩ := hmissed 5 [] 10 1 rfl hret
  refine ⟨hret, (hlength 5 1 hret).symm, hdropped, hpublished (by simp [steps]), missed, hcount, ?_⟩
  exact (hmem 1).mpr ⟨by decide, 7, by decide, by decide, Or.inl (Or.inl (by decide)), by decide⟩

end results

end Switchboard.Hub
