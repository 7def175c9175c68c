import Mathlib.Data.List.Basic
import Switchboard.Proofs.Queue.Moves

/-!
# Histories of a queue

What becomes of the values and the calls of a queue over any run of operations.

**Values** (`values_in_order`). As long as the queue is not closed, the values taken followed by the
values stored are the values accepted, in the order in which they were accepted. A close discards
what is stored, and nothing is accepted after it.

**Calls** (`waiting_in_line`). A call waits only while it could not go on. Those that wait are
released in the order in which they came: one push for each value that is taken, one pop for each
that is accepted.
-/

namespace Switchboard.Queue

variable {α : Type}

/-! ## Histories -/

/-- A queue and what has been seen of it so far. A call is named by its place among the steps. -/
structure History (α : Type) where
  queue : Queue Nat Nat α
  steps : List (Step α)
  /-- The values accepted, in order of acceptance. -/
  accepted : List α
  /-- The values given to callers, in order. -/
  dequeued : List α
  /-- The pushes that had to wait, in order of arrival. -/
  waitedPushes : List Nat
  /-- The pops that had to wait, in order of arrival. -/
  waitedPops : List Nat
  /-- The waiting calls that were released, in order. -/
  released : List (Release Nat Nat α)

/-- The value that a call pushed, if the steps made so far say so. -/
def pushedBy (steps : List (Step α)) (call : Nat) : Option α :=
  match steps[call]? with
  | some (.push v) => some v
  | _ => none

/-- The values of the pushes that were let in. -/
def acceptedIn (steps : List (Step α)) (released : List (Release Nat Nat α)) : List α :=
  released.filterMap fun
    | .pushed call true => pushedBy steps call
    | _ => none

/-- The values that waiting pops were given. -/
def servedIn (released : List (Release Nat Nat α)) : List α :=
  released.filterMap fun
    | .popped _ v => v
    | .pushed .. => none

/-- The pushes that were released. -/
def pushesIn (released : List (Release Nat Nat α)) : List Nat :=
  released.filterMap fun
    | .pushed call _ => some call
    | .popped .. => none

/-- The pops that were released. -/
def popsIn (released : List (Release Nat Nat α)) : List Nat :=
  released.filterMap fun
    | .popped call _ => some call
    | .pushed .. => none

namespace History

/-- What the next step comes to. -/
def act (h : History α) (st : Step α) : Queue Nat Nat α × Deed Nat Nat α :=
  st.act h.queue h.steps.length h.steps.length

/-- One more step. -/
def next (h : History α) (st : Step α) : History α :=
  let (queue, deed) := h.act st
  let steps := h.steps ++ [st]
  let waiting := if deed.parked then [h.steps.length] else []
  { queue
    steps
    accepted := h.accepted ++ deed.stored.toList ++ acceptedIn steps deed.released
    dequeued := h.dequeued ++ deed.taken.toList ++ servedIn deed.released
    waitedPushes := h.waitedPushes ++ if st.takes then [] else waiting
    waitedPops := h.waitedPops ++ if st.takes then waiting else []
    released := h.released ++ deed.released }

theorem accepted_next (h : History α) (st : Step α) :
    (h.next st).accepted = h.accepted ++
      ((h.act st).2.stored.toList ++ acceptedIn (h.steps ++ [st]) (h.act st).2.released) :=
  List.append_assoc ..

theorem dequeued_next (h : History α) (st : Step α) :
    (h.next st).dequeued = h.dequeued ++
      ((h.act st).2.taken.toList ++ servedIn (h.act st).2.released) :=
  List.append_assoc ..

/-- The history of a new queue. -/
def start (capacity : Nat) : History α := ⟨.new capacity, [], [], [], [], [], []⟩

/-- More steps. -/
def extend (h : History α) (steps : List (Step α)) : History α := steps.foldl next h

end History

/-- The history of some steps on a new queue. -/
def history (capacity : Nat) (steps : List (Step α)) : History α :=
  (History.start capacity).extend steps

theorem history_append (capacity : Nat) (before after : List (Step α)) :
    history capacity (before ++ after) = (history capacity before).extend after :=
  List.foldl_append ..

/-! ## What a move does to values and lines -/

section moves

variable {pusher popper : Nat} {w w' : View Nat Nat α} {st : Step α} {d : Deed Nat Nat α}
  {steps : List (Step α)}

theorem pushedBy_append {call : Nat} {v : α} (h : pushedBy steps call = some v)
    (more : List (Step α)) : pushedBy (steps ++ more) call = some v := by
  unfold pushedBy at h ⊢
  cases hs : steps[call]? with
  | none => simp [hs] at h
  | some st =>
    rw [hs] at h
    rw [List.getElem?_append_left (List.getElem?_eq_some_iff.mp hs).1, hs]
    exact h

theorem pushedBy_length (steps : List (Step α)) (v : α) :
    pushedBy (steps ++ [.push v]) steps.length = some v := by
  simp [pushedBy]

theorem values_dismissed (steps : List (Step α)) (w : View Nat Nat α) :
    acceptedIn steps w.dismissed = [] ∧ servedIn w.dismissed = [] := by
  constructor
  all_goals
    refine List.filterMap_eq_nil_iff.mpr fun r hr => ?_
    rcases List.mem_append.mp hr with hr | hr
    · obtain ⟨p, -, rfl⟩ := List.mem_map.mp hr
      rfl
    · obtain ⟨c, -, rfl⟩ := List.mem_map.mp hr
      rfl

theorem calls_dismissed (w : View Nat Nat α) :
    pushesIn w.dismissed = w.pushers.map (·.1) ∧ popsIn w.dismissed = w.poppers := by
  unfold View.dismissed pushesIn popsIn
  rw [List.filterMap_append, List.filterMap_append, List.filterMap_map, List.filterMap_map,
    List.filterMap_map, List.filterMap_map]
  constructor <;> simp

/-- **A move balances its values.** What goes out and what is stored afterwards is what was stored
and what came in, unless the queue is closed. -/
theorem Move.balance (hm : Move pusher popper w st d w')
    (hp : ∀ p ∈ w.pushers, pushedBy steps p.1 = some p.2) (hst : st ≠ .close) :
    d.taken.toList ++ servedIn d.released ++ w'.items =
      w.items ++ (d.stored.toList ++ acceptedIn steps d.released) := by
  cases hm with
  | refuse _ => exact (List.append_nil _).symm
  | store _ _ _ _ => exact congrArg (w.items ++ ·) (List.append_nil _).symm
  | handOver _ _ hitems _ =>
    rw [hitems]
    rfl
  | take _ hitems _ =>
    rw [hitems]
    exact (List.append_nil _).symm
  | @letIn _ v x rest c ps _ hitems hpush =>
    have hx : pushedBy steps c = some x := hp (c, x) (hpush ▸ List.mem_cons_self ..)
    have hin : acceptedIn steps [(.pushed c true : Release Nat Nat α)] = [x] := by
      rw [acceptedIn, List.filterMap_cons]
      simp only [hx]
      rfl
    rw [hin, hitems]
    rfl
  | parkPush _ _ => exact (List.append_nil _).symm
  | parkPop _ _ => exact (List.append_nil _).symm
  | close => exact absurd rfl hst
  | retire _ =>
    rw [(values_dismissed steps w).1, (values_dismissed steps w).2]
    exact (List.append_nil _).symm

theorem Move.still (hm : Move pusher popper w st d w') (hc : w.closed = true) (hi : w.items = []) :
    d.stored.toList ++ acceptedIn steps d.released = [] ∧
      d.taken.toList ++ servedIn d.released = [] ∧ w'.closed = true ∧ w'.items = [] := by
  have hopen : w.closed ≠ false := by simp [hc]
  have hnone : ∀ {v : α} {rest : List α}, w.items ≠ v :: rest := by
    intro v rest
    rw [hi]
    exact (List.cons_ne_nil v rest).symm
  cases hm with
  | refuse _ => exact ⟨rfl, rfl, hc, hi⟩
  | store _ h _ _ => exact absurd h hopen
  | handOver _ h _ _ => exact absurd h hopen
  | take _ h _ => exact absurd h hnone
  | letIn _ h _ => exact absurd h hnone
  | parkPush h _ => exact absurd h hopen
  | parkPop h _ => exact absurd h hopen
  | close => exact ⟨(values_dismissed steps w).1, (values_dismissed steps w).2, rfl, rfl⟩
  | retire h => exact absurd h hopen

/-- **A move keeps the lines in order.** Whoever is released stood in front, and whoever comes
stands behind the others. -/
theorem Move.lines (hm : Move pusher popper w st d w') :
    w.pushers.map (·.1) ++ (if st.takes then [] else if d.parked then [pusher] else []) =
        pushesIn d.released ++ w'.pushers.map (·.1) ∧
      w.poppers ++ (if st.takes then if d.parked then [popper] else [] else []) =
        popsIn d.released ++ w'.poppers := by
  have hcalm : ∀ {d : Deed Nat Nat α}, d.parked = false → ∀ {a b : List Nat},
      a ++ (if st.takes then [] else if d.parked then [pusher] else []) = a ∧
        b ++ (if st.takes then if d.parked then [popper] else [] else []) = b := by
    intro d hd a b
    rw [hd]
    cases st.takes <;> exact ⟨List.append_nil _, List.append_nil _⟩
  cases hm with
  | refuse _ => exact hcalm rfl
  | store _ _ _ _ => exact hcalm rfl
  | handOver _ _ _ hpop =>
    rw [hpop]
    exact hcalm rfl
  | take _ _ _ => exact hcalm rfl
  | letIn _ _ hpush =>
    rw [hpush]
    exact hcalm rfl
  | @parkPush v _ _ =>
    refine ⟨?_, List.append_nil _⟩
    show w.pushers.map (·.1) ++ [pusher] = (w.pushers ++ [(pusher, v)]).map (·.1)
    rw [List.map_append]
    rfl
  | parkPop _ _ => exact ⟨List.append_nil _, rfl⟩
  | close =>
    rw [(calls_dismissed w).1, (calls_dismissed w).2, List.map_nil, List.append_nil,
      List.append_nil]
    exact hcalm rfl
  | retire _ =>
    rw [(calls_dismissed w).1, (calls_dismissed w).2]
    show _ = _ ++ [] ∧ _ = _ ++ []
    rw [List.append_nil, List.append_nil]
    exact hcalm rfl

theorem Move.pushed (hm : Move steps.length popper w st d w')
    (hp : ∀ p ∈ w.pushers, pushedBy steps p.1 = some p.2) :
    ∀ p ∈ w'.pushers, pushedBy (steps ++ [st]) p.1 = some p.2 := by
  have hold : ∀ p ∈ w.pushers, pushedBy (steps ++ [st]) p.1 = some p.2 :=
    fun p hmem => pushedBy_append (hp p hmem) _
  cases hm with
  | letIn _ _ hpush =>
    intro p hmem
    exact hold p (hpush ▸ List.mem_cons_of_mem _ hmem)
  | @parkPush v _ _ =>
    intro p hmem
    rcases List.mem_append.mp hmem with hmem | hmem
    · exact hold p hmem
    · rw [List.mem_singleton.mp hmem]
      exact pushedBy_length steps v
  | close => exact fun _ hmem => absurd hmem List.not_mem_nil
  | retire _ => exact fun _ hmem => absurd hmem List.not_mem_nil
  | _ => exact hold

theorem Move.capacity_eq (hm : Move pusher popper w st d w') : w'.capacity = w.capacity := by
  cases hm <;> rfl

/-- A push that is turned away after it waited leaves the values as they are. Only a close discards
them. -/
theorem Move.items_of_turnedAway (hm : Move pusher popper w st d w') {c : Nat}
    (hc : .pushed c false ∈ d.released) (hst : st ≠ .close) : w'.items = w.items := by
  cases hm with
  | close => exact absurd rfl hst
  | retire _ => rfl
  | handOver _ _ _ _ => simp at hc
  | letIn _ _ _ => simp at hc
  | _ => exact absurd hc List.not_mem_nil

/-- **One value out, one push in.** -/
theorem Move.letsIn (hm : Move pusher popper w st d w') {c : Nat} {x v : α} {ps : List (Nat × α)}
    (hpush : w.pushers = (c, x) :: ps) (ht : d.taken = some v) :
    d.released = [.pushed c true] ∧ w'.pushers = ps := by
  cases hm with
  | take _ _ h =>
    rw [hpush] at h
    cases h
  | letIn _ _ h =>
    rw [hpush] at h
    cases h
    exact ⟨rfl, rfl⟩
  | _ => cases ht

/-- **One value in, one pop out.** -/
theorem Move.serves (hm : Move pusher popper w st d w') {c : Nat} {v : α} {cs : List Nat}
    (hpop : w.poppers = c :: cs) (hstored : d.stored = some v) :
    d.released = [.popped c (some v)] ∧ w'.poppers = cs := by
  cases hm with
  | store _ _ _ h =>
    rw [hpop] at h
    cases h
  | handOver _ _ _ h =>
    rw [hpop] at h
    cases h
    cases hstored
    exact ⟨rfl, rfl⟩
  | _ => cases hstored

end moves

/-! ## Refusals -/

theorem push_of_refused {π ρ : Type} {q : Queue π ρ α} {caller : π} {v : α}
    (h : (q.push caller v).result = .returned false) : (q.push caller v).queue = q := by
  unfold push at h ⊢
  split
  · rfl
  · rename_i hopen
    rw [if_neg hopen] at h
    split at h
    · cases h
    · cases h

theorem tryPush_of_refused {π ρ : Type} {q : Queue π ρ α} {v : α} {refused : Refused α}
    (h : (q.tryPush v).result = .error refused) :
    (q.tryPush v).queue = q ∧ refused.value = v := by
  unfold tryPush Buffer.tryPush at h ⊢
  split at h
  · rename_i heq
    cases h
    refine ⟨rfl, ?_⟩
    split at heq
    · cases heq
      rfl
    · split at heq
      · cases heq
      · cases heq
        rfl
  · cases h

/-! ## What every step keeps -/

/-- What holds between two steps. -/
structure History.Sound (h : History α) : Prop where
  settled : h.queue.view.Settled
  pushed : ∀ p ∈ h.queue.view.pushers, pushedBy h.steps p.1 = some p.2
  values : .close ∉ h.steps → h.dequeued ++ h.queue.view.items = h.accepted
  shut : .close ∈ h.steps → h.queue.view.closed = true ∧ h.queue.view.items = []
  taken : h.dequeued <+: h.accepted
  pushes : h.waitedPushes = pushesIn h.released ++ h.queue.view.pushers.map (·.1)
  pops : h.waitedPops = popsIn h.released ++ h.queue.view.poppers

section history

variable {h : History α}

theorem sound_start (capacity : Nat) : (History.start capacity : History α).Sound :=
  ⟨settled_new capacity, fun _ hmem => absurd hmem List.not_mem_nil, fun _ => rfl,
    fun hmem => absurd hmem List.not_mem_nil, List.prefix_refl _, rfl, rfl⟩

theorem History.Sound.moves (hs : h.Sound) (st : Step α) :
    Move h.steps.length h.steps.length h.queue.view st (h.act st).2 (h.next st).queue.view :=
  Step.moves hs.settled _ _ st

theorem History.Sound.next_shut (hs : h.Sound) {st : Step α}
    (hst : st = .close ∨ .close ∈ h.steps) :
    (h.next st).accepted = h.accepted ∧ (h.next st).dequeued = h.dequeued ∧
      (h.next st).queue.view.closed = true ∧ (h.next st).queue.view.items = [] := by
  have hstill :
      (h.act st).2.stored.toList ++ acceptedIn (h.steps ++ [st]) (h.act st).2.released = [] ∧
      (h.act st).2.taken.toList ++ servedIn (h.act st).2.released = [] ∧
      (h.next st).queue.view.closed = true ∧ (h.next st).queue.view.items = [] := by
    rcases hst with rfl | hmem
    · exact ⟨(values_dismissed _ h.queue.view).1, (values_dismissed [] h.queue.view).2, rfl, rfl⟩
    · exact (hs.moves st).still (hs.shut hmem).1 (hs.shut hmem).2
  obtain ⟨hin, hout, hclosed, hempty⟩ := hstill
  refine ⟨?_, ?_, hclosed, hempty⟩
  · rw [accepted_next, hin, List.append_nil]
  · rw [dequeued_next, hout, List.append_nil]

/-- **Every step keeps the account.** -/
theorem History.Sound.next (hs : h.Sound) (st : Step α) : (h.next st).Sound := by
  have hm := hs.moves st
  have hpushed : ∀ p ∈ h.queue.view.pushers, pushedBy (h.steps ++ [st]) p.1 = some p.2 :=
    fun p hmem => pushedBy_append (hs.pushed p hmem) _
  obtain ⟨hpushes, hpops⟩ := hm.lines
  have hvalues : .close ∉ h.steps ++ [st] →
      (h.next st).dequeued ++ (h.next st).queue.view.items = (h.next st).accepted := by
    intro hno
    have hst : st ≠ .close := fun heq => hno (by simp [heq])
    have hbalance := hm.balance hpushed hst
    have hold := hs.values fun hmem => hno (List.mem_append_left _ hmem)
    rw [dequeued_next, accepted_next, List.append_assoc, hbalance, ← List.append_assoc, hold]
  have hshut : .close ∈ h.steps ++ [st] → st = .close ∨ .close ∈ h.steps := fun hmem =>
    (List.mem_append.mp hmem).symm.imp_left fun h => (List.mem_singleton.mp h).symm
  refine ⟨hm.settled hs.settled, hm.pushed hs.pushed, hvalues,
    fun hmem => (hs.next_shut (hshut hmem)).2.2, ?_, ?_, ?_⟩
  · by_cases hclose : .close ∈ h.steps ++ [st]
    · obtain ⟨hin, hout, -⟩ := hs.next_shut (hshut hclose)
      rw [hin, hout]
      exact hs.taken
    · rw [← hvalues hclose]
      exact List.prefix_append _ _
  · show h.waitedPushes ++ _ = pushesIn (h.released ++ _) ++ _
    rw [pushesIn, List.filterMap_append, List.append_assoc, hs.pushes, List.append_assoc]
    exact congrArg (pushesIn h.released ++ ·) hpushes
  · show h.waitedPops ++ _ = popsIn (h.released ++ _) ++ _
    rw [popsIn, List.filterMap_append, List.append_assoc, hs.pops, List.append_assoc]
    exact congrArg (popsIn h.released ++ ·) hpops

theorem History.Sound.extend (hs : h.Sound) (steps : List (Step α)) : (h.extend steps).Sound := by
  induction steps generalizing h with
  | nil => exact hs
  | cons st steps ih => exact ih (hs.next st)

theorem sound_history (capacity : Nat) (steps : List (Step α)) : (history capacity steps).Sound :=
  (sound_start capacity).extend steps

theorem capacity_history (capacity : Nat) (steps : List (Step α)) :
    (history capacity steps).queue.capacity = max capacity 1 := by
  have hextend : ∀ h : History α, h.Sound → (h.extend steps).queue.capacity = h.queue.capacity := by
    induction steps with
    | nil => exact fun _ _ => rfl
    | cons st steps ih => exact fun h hs => (ih _ (hs.next st)).trans (hs.moves st).capacity_eq
  exact hextend _ (sound_start capacity)

theorem History.steps_extend (h : History α) (steps : List (Step α)) :
    (h.extend steps).steps = h.steps ++ steps := by
  induction steps generalizing h with
  | nil => exact (List.append_nil _).symm
  | cons st steps ih => exact (ih (h.next st)).trans (List.append_cons ..).symm

theorem steps_history (capacity : Nat) (steps : List (Step α)) :
    (history capacity steps).steps = steps :=
  History.steps_extend (.start capacity) steps

theorem History.Sound.accepted_extend (hs : h.Sound) (hmem : .close ∈ h.steps)
    (steps : List (Step α)) :
    (h.extend steps).accepted = h.accepted := by
  induction steps generalizing h with
  | nil => rfl
  | cons st steps ih =>
    exact (ih (hs.next st) (List.mem_append_left _ hmem)).trans (hs.next_shut (Or.inr hmem)).1

/-! ## Main statements -/

/-- **The values of a queue keep their order, and none is lost until a close.**

As long as the queue has not been closed, the values taken followed by those stored are the values
accepted. From the first close on nothing is stored, nothing more is accepted, and the values taken
are the first of those accepted. The capacity, which counts as one at least, is never exceeded. A
push that returns without success leaves the values as they are, at once or after it waited, and one
that does not wait gives its value back. -/
theorem values_in_order (capacity : Nat) (steps : List (Step α)) :
    let h := history capacity steps
    let items := h.queue.buffer.items.toList
    (.close ∉ steps → h.dequeued ++ items = h.accepted) ∧
      (∀ before after, steps = before ++ .close :: after →
        items = [] ∧ h.accepted = (history capacity before).accepted ∧ h.dequeued <+: h.accepted) ∧
      h.queue.size ≤ max capacity 1 ∧
      (∀ caller v, (h.queue.push caller v).result = .returned false →
        (h.queue.push caller v).queue = h.queue) ∧
      (∀ st caller, .pushed caller false ∈ (h.act st).2.released → st ≠ .close →
        (h.next st).queue.buffer.items.toList = items) ∧
      ∀ v refused, (h.queue.tryPush v).result = .error refused →
        (h.queue.tryPush v).queue = h.queue ∧ refused.value = v := by
  intro h items
  have hs : h.Sound := sound_history capacity steps
  have hsteps : h.steps = steps := steps_history capacity steps
  refine ⟨fun hno => hs.values (hsteps ▸ hno), ?_, ?_, fun _ _ => push_of_refused,
    fun st caller hmem hst => (hs.moves st).items_of_turnedAway hmem hst,
    fun _ _ hr => tryPush_of_refused hr⟩
  · rintro before after rfl
    have hclose : .close ∈ h.steps := by
      rw [hsteps]
      exact List.mem_append_right _ (List.mem_cons_self ..)
    refine ⟨(hs.shut hclose).2, ?_, hs.taken⟩
    have hbefore := sound_history capacity before
    have hsplit : h = ((history capacity before).next .close).extend after :=
      history_append capacity before _
    have hshut : .close ∈ ((history capacity before).next .close).steps :=
      List.mem_append_right _ (List.mem_singleton_self _)
    rw [hsplit, (hbefore.next .close).accepted_extend hshut, (hbefore.next_shut (Or.inl rfl)).1]
  · rw [← capacity_history capacity steps]
    exact Nat.le_trans (Nat.le_of_eq (Fifo.size_eq_length _)) hs.settled.length_le

/-- **Nobody waits in vain, and everybody waits in line.**

A push waits only while the queue is open and full, a pop only while it is open and empty. So both
never wait at the same time, and nobody waits on a queue that is shut. Those who waited were
released in the order in which they came, and the others stand in line still: each value taken lets
in the push that has waited longest and nobody else, each value accepted serves the pop that has
waited longest and nobody else. -/
theorem waiting_in_line (capacity : Nat) (steps : List (Step α)) :
    let h := history capacity steps
    let q := h.queue
    (q.pushers.toList ≠ [] → q.isClosed = false ∧ q.size = max capacity 1) ∧
      (q.poppers.toList ≠ [] → q.isClosed = false ∧ q.size = 0) ∧
      (q.pushers.toList = [] ∨ q.poppers.toList = []) ∧
      (q.isClosed = true → q.pushers.toList = [] ∧ q.poppers.toList = []) ∧
      h.waitedPushes = pushesIn h.released ++ q.pushers.toList.map (·.1) ∧
      h.waitedPops = popsIn h.released ++ q.poppers.toList ∧
      (∀ st c x ps v, q.pushers.toList = (c, x) :: ps → (h.act st).2.taken = some v →
        (h.act st).2.released = [.pushed c true] ∧ (h.next st).queue.pushers.toList = ps) ∧
      ∀ st c cs v, q.poppers.toList = c :: cs → (h.act st).2.stored = some v →
        (h.act st).2.released = [.popped c (some v)] ∧ (h.next st).queue.poppers.toList = cs := by
  intro h q
  have hs : h.Sound := sound_history capacity steps
  have hsize : ∀ {n}, h.queue.view.items.length = n → q.size = n :=
    fun hn => (Fifo.size_eq_length _).trans hn
  refine ⟨fun hpush => ?_, fun hpop => ?_, ?_, hs.settled.alone_of_closed, hs.pushes, hs.pops,
    fun st _ _ _ _ hpush ht => (hs.moves st).letsIn hpush ht,
    fun st _ _ _ hpop hst => (hs.moves st).serves hpop hst⟩
  · obtain ⟨hopen, hfull⟩ := hs.settled.pushers hpush
    exact ⟨hopen, (hsize hfull).trans (capacity_history capacity steps)⟩
  · obtain ⟨hopen, hempty⟩ := hs.settled.poppers hpop
    exact ⟨hopen, hsize (congrArg List.length hempty)⟩
  · by_cases hpush : q.pushers.toList = []
    · exact Or.inl hpush
    · exact Or.inr (hs.settled.poppers_of_pushers hpush)

/-- Two pushes wait for room, and the second is turned away when the queue is retired. What was
accepted can still be taken. -/
example :
    let h := history 1 [.push 'a', .push 'b', .push 'c', .pop, .retire, .pop, .tryPush 'd', .pop]
    (h.accepted, h.dequeued, h.released) =
      (['a', 'b'], ['a', 'b'], [.pushed 1 true, .pushed 2 false]) := by
  decide

end history

end Switchboard.Queue
