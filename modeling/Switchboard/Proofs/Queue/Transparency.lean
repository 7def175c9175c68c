import Switchboard.Proofs.Queue.Returns

/-!
# The capacity of a queue does not show

As long as callers only push and pop, and wait where they must, the capacity decides how long pushes
wait and nothing else.

**The line** (`Outstanding`). The stored values followed by those of the waiting pushes are the
values pushed so far without as many of the first as there were pops, whatever the capacity. The
pops that wait are those issued so far without as many of the first as there were pushes.

**Main statement** (`capacity_is_transparent`). The `k`-th pop returns the value of the `k`-th push,
in the step in which the later one of the two is issued.
-/

namespace Switchboard.Queue

variable {α : Type}

/-- The calls that wait where they must, rather than give up. -/
def Step.mayWait : Step α → Bool
  | push _ | pop => true
  | tryPush _ | tryPop | close | retire => false

/-- What a pop returns with that is served by a push, in the step in which both have been issued. -/
def meeting (pop : Nat) (push : Nat × α) : Return (Option α) :=
  ⟨pop, max pop push.1, some push.2⟩

/-! ## One more call -/

theorem pushesOf_push (steps : List (Step α)) (v : α) :
    pushesOf (steps ++ [.push v]) = pushesOf steps ++ [(steps.length, v)] :=
  pushesOf_concat ..

theorem popsOf_push (steps : List (Step α)) (v : α) :
    popsOf (steps ++ [.push v]) = popsOf steps :=
  (popsOf_concat ..).trans (List.append_nil _)

theorem pushesOf_pop (steps : List (Step α)) : pushesOf (steps ++ [.pop]) = pushesOf steps :=
  (pushesOf_concat ..).trans (List.append_nil _)

theorem popsOf_pop (steps : List (Step α)) :
    popsOf (steps ++ [.pop]) = popsOf steps ++ [steps.length] :=
  popsOf_concat ..

/-! ## Pairing calls -/

section pairing

variable {γ δ ε : Type}

theorem zipWith_concat_right (f : γ → δ → ε) (as : List γ) (bs : List δ) (b : δ) :
    List.zipWith f as (bs ++ [b]) =
      List.zipWith f as bs ++ ((as.drop bs.length).head?.map (f · b)).toList := by
  induction bs generalizing as with
  | nil => cases as <;> simp
  | cons b' bs ih =>
    cases as with
    | nil => simp
    | cons a as => simp [ih]

theorem zipWith_concat_left (f : γ → δ → ε) (as : List γ) (bs : List δ) (a : γ) :
    List.zipWith f (as ++ [a]) bs =
      List.zipWith f as bs ++ ((bs.drop as.length).head?.map (f a)).toList := by
  rw [List.zipWith_comm, zipWith_concat_right, List.zipWith_comm (f := f)]

end pairing

/-! ## A call on an open queue -/

section calls

variable {pusher popper : Nat} {w w' : View Nat Nat α} {d : Deed Nat Nat α} {v : α}

theorem View.Settled.pushers_of_room (hs : w.Settled) (hroom : w.items.length < w.capacity) :
    w.pushers = [] := by
  by_contra hpush
  exact Nat.ne_of_lt hroom (hs.pushers hpush).2

theorem View.Settled.pushers_of_empty (hs : w.Settled) (hitems : w.items = []) :
    w.pushers = [] := by
  apply hs.pushers_of_room
  rw [hitems]
  exact hs.capacity_pos

theorem View.Settled.poppers_of_items (hs : w.Settled) (hitems : w.items ≠ []) :
    w.poppers = [] := by
  by_contra hpop
  exact hitems (hs.poppers hpop).2

/-- **A push** stores its value, hands it over to the pop that has waited longest, or waits. -/
theorem Move.push_cases (hm : Move pusher popper w (.push v) d w') (hs : w.Settled)
    (hopen : w.closed = false) :
    (w.poppers = [] ∧ w.pushers = [] ∧ d = ⟨some v, none, false, []⟩ ∧
        w' = { w with items := w.items ++ [v] }) ∨
      (∃ c cs, w.poppers = c :: cs ∧ w.pushers = [] ∧ w.items = [] ∧
        d = ⟨some v, none, false, [.popped c (some v)]⟩ ∧ w' = { w with poppers := cs }) ∨
      (w.poppers = [] ∧ d = ⟨none, none, true, []⟩ ∧
        w' = { w with pushers := w.pushers ++ [(pusher, v)] }) := by
  cases hm with
  | refuse hshut => exact absurd (hopen.symm.trans hshut) (by decide)
  | store hv _ hroom hpop =>
    cases hv
    exact Or.inl ⟨hpop, hs.pushers_of_room hroom, rfl, rfl⟩
  | @handOver _ _ c cs hv _ hitems hpop =>
    cases hv
    exact Or.inr (Or.inl ⟨c, cs, hpop, hs.pushers_of_empty hitems, hitems, rfl, rfl⟩)
  | take ht _ _ => cases ht
  | letIn ht _ _ => cases ht
  | parkPush _ hfull =>
    -- With room for one value at least, a full queue is not empty.
    have hitems : w.items ≠ [] := by
      intro hnil
      rw [hnil] at hfull
      exact Nat.ne_of_lt hs.capacity_pos hfull
    exact Or.inr (Or.inr ⟨hs.poppers_of_items hitems, rfl, rfl⟩)

/-- **A pop** takes the oldest value, and lets in the push that has waited longest, or it waits. -/
theorem Move.pop_cases (hm : Move pusher popper w .pop d w') (hs : w.Settled)
    (hopen : w.closed = false) :
    (∃ x rest, w.items = x :: rest ∧ w.pushers = [] ∧ d = ⟨none, some x, false, []⟩ ∧
        w' = { w with items := rest }) ∨
      (∃ x rest c y ps, w.items = x :: rest ∧ w.pushers = (c, y) :: ps ∧
        d = ⟨none, some x, false, [.pushed c true]⟩ ∧
        w' = { w with items := rest ++ [y], pushers := ps }) ∨
      (w.items = [] ∧ w.pushers = [] ∧ d = ⟨none, none, true, []⟩ ∧
        w' = { w with poppers := w.poppers ++ [popper] }) := by
  cases hm with
  | refuse hshut => exact absurd (hopen.symm.trans hshut.2) (by decide)
  | store hv _ _ _ => cases hv
  | handOver hv _ _ _ => cases hv
  | take _ hitems hpush => exact Or.inl ⟨_, _, hitems, hpush, rfl, rfl⟩
  | letIn _ hitems hpush => exact Or.inr (Or.inl ⟨_, _, _, _, _, hitems, hpush, rfl, rfl⟩)
  | parkPop _ hitems => exact Or.inr (Or.inr ⟨hitems, hs.pushers_of_empty hitems, rfl, rfl⟩)

end calls

/-! ## What is outstanding -/

/-- How a queue stands after some calls that wait where they must. -/
structure Outstanding (steps : List (Step α)) (w : View Nat Nat α) : Prop where
  isOpen : w.closed = false
  line : w.items ++ w.pushers.map (·.2) =
    ((pushesOf steps).drop (popsOf steps).length).map (·.2)
  pushers : w.pushers <:+ pushesOf steps
  poppers : w.poppers = (popsOf steps).drop (pushesOf steps).length

theorem outstanding_start (capacity : Nat) :
    Outstanding ([] : List (Step α)) (History.start capacity).queue.view :=
  ⟨rfl, rfl, List.nil_suffix, rfl⟩

namespace Outstanding

variable {w w' : View Nat Nat α} {d : Deed Nat Nat α} {steps : List (Step α)} {v : α}

theorem pops_le (ho : Outstanding steps w) (hpop : w.poppers = []) :
    (popsOf steps).length ≤ (pushesOf steps).length :=
  List.drop_eq_nil_iff.mp (ho.poppers.symm.trans hpop)

theorem pushes_le (ho : Outstanding steps w) (hitems : w.items = []) (hpush : w.pushers = []) :
    (pushesOf steps).length ≤ (popsOf steps).length := by
  have hline := ho.line
  rw [hitems, hpush] at hline
  simpa using hline.symm

/-- The head of the line is the first push that no pop has met. -/
theorem head_push (ho : Outstanding steps w) {rest : List α} (hitems : w.items = v :: rest) :
    ∃ n, ((pushesOf steps).drop (popsOf steps).length).head? = some (n, v) := by
  have hline := congrArg List.head? ho.line
  rw [hitems, List.head?_map] at hline
  obtain ⟨⟨n, x⟩, hhead, rfl⟩ := Option.map_eq_some_iff.mp hline.symm
  exact ⟨n, hhead⟩

/-! ### Pushing -/

theorem join (ho : Outstanding steps w) (hpop : w.poppers = []) (v : α) :
    w.items ++ w.pushers.map (·.2) ++ [v] =
        ((pushesOf (steps ++ [.push v])).drop (popsOf (steps ++ [.push v])).length).map (·.2) ∧
      w.poppers = (popsOf (steps ++ [.push v])).drop (pushesOf (steps ++ [.push v])).length := by
  have hle := ho.pops_le hpop
  rw [pushesOf_push, popsOf_push]
  constructor
  · rw [List.drop_append_of_le_length hle, List.map_append, ho.line]
    rfl
  · rw [hpop, List.drop_eq_nil_of_le]
    rw [List.length_append]
    omega

/-- **A push joins the line.** It is stored, or it waits, or it goes on to the pop that has waited
longest. -/
theorem push (ho : Outstanding steps w) (hs : w.Settled)
    (hm : Move steps.length steps.length w (.push v) d w') :
    Outstanding (steps ++ [.push v]) w' := by
  rcases hm.push_cases hs ho.isOpen with
    ⟨hpop, hnone, -, rfl⟩ | ⟨c, cs, hpop, hnone, hitems, -, rfl⟩ | ⟨hpop, -, rfl⟩
  · obtain ⟨hline, hpoppers⟩ := ho.join hpop v
    refine ⟨ho.isOpen, ?_, ?_, hpoppers⟩
    · simpa [hnone] using hline
    · simp [hnone]
  · have hdrop := ho.poppers.symm.trans hpop
    have hlt : (pushesOf steps).length < (popsOf steps).length := by
      by_contra hge
      rw [List.drop_eq_nil_of_le (Nat.not_lt.mp hge)] at hdrop
      cases hdrop
    refine ⟨ho.isOpen, ?_, ?_, ?_⟩
    · rw [pushesOf_push, popsOf_push, List.drop_eq_nil_of_le (by simp; omega)]
      simp [hnone, hitems]
    · simp [hnone]
    · rw [pushesOf_push, popsOf_push, List.length_append, List.length_singleton, ← List.drop_drop,
        hdrop]
      rfl
  · obtain ⟨hline, hpoppers⟩ := ho.join hpop v
    refine ⟨ho.isOpen, ?_, ?_, hpoppers⟩
    · simpa using hline
    · obtain ⟨before, hbefore⟩ := ho.pushers
      exact ⟨before, by rw [pushesOf_push, ← hbefore, List.append_assoc]⟩

theorem push_returns (ho : Outstanding steps w) (hs : w.Settled)
    (hm : Move steps.length steps.length w (.push v) d w') :
    d.popReturns (.push v) steps.length =
        (((popsOf steps).drop (pushesOf steps).length).head?.map
          (meeting · (steps.length, v))).toList ∧
      ∀ r ∈ d.pushReturns (.push v) steps.length, r.answer = true := by
  rw [← ho.poppers]
  rcases hm.push_cases hs ho.isOpen with
    ⟨hpop, -, rfl, -⟩ | ⟨c, cs, hpop, -, -, rfl, -⟩ | ⟨hpop, rfl, -⟩
  · rw [hpop]
    exact ⟨rfl, by simp [Deed.pushReturns, Return.direct, Step.value?]⟩
  · have hearlier : c < steps.length := by
      apply lt_of_mem_popsOf
      apply List.mem_of_mem_drop (i := (pushesOf steps).length)
      rw [← ho.poppers, hpop]
      exact List.mem_cons_self
    rw [hpop]
    refine ⟨?_, by simp [Deed.pushReturns, Return.direct, Step.value?]⟩
    simp [Deed.popReturns, meeting, Step.takes, Nat.max_eq_right (Nat.le_of_lt hearlier)]
  · rw [hpop]
    exact ⟨rfl, by simp [Deed.pushReturns]⟩

/-! ### Popping -/

theorem leave (ho : Outstanding steps w) (hs : w.Settled) {rest : List α}
    (hitems : w.items = v :: rest) :
    rest ++ w.pushers.map (·.2) =
        ((pushesOf (steps ++ [.pop])).drop (popsOf (steps ++ [.pop])).length).map (·.2) ∧
      w.poppers = (popsOf (steps ++ [.pop])).drop (pushesOf (steps ++ [.pop])).length := by
  have hline := ho.line
  rw [hitems] at hline
  rw [pushesOf_pop, popsOf_pop]
  constructor
  · rw [List.length_append, List.length_singleton, ← List.tail_drop, List.map_tail, ← hline]
    rfl
  · have hpop := hs.poppers_of_items (hitems ▸ List.cons_ne_nil v rest)
    have hlen := congrArg List.length hline
    simp only [List.cons_append, List.length_cons, List.length_map, List.length_drop] at hlen
    rw [hpop, List.drop_eq_nil_of_le]
    rw [List.length_append, List.length_singleton]
    omega

/-- **A pop takes the head of the line**, or it waits behind the others. -/
theorem pop (ho : Outstanding steps w) (hs : w.Settled)
    (hm : Move steps.length steps.length w .pop d w') : Outstanding (steps ++ [.pop]) w' := by
  have hpushes : w.pushers <:+ pushesOf (steps ++ [.pop]) := by
    rw [pushesOf_pop]
    exact ho.pushers
  rcases hm.pop_cases hs ho.isOpen with
    ⟨x, rest, hitems, -, -, rfl⟩ | ⟨x, rest, c, y, ps, hitems, hpush, -, rfl⟩ |
    ⟨hitems, hnone, -, rfl⟩
  · obtain ⟨hline, hpoppers⟩ := ho.leave hs hitems
    exact ⟨ho.isOpen, hline, hpushes, hpoppers⟩
  · obtain ⟨hline, hpoppers⟩ := ho.leave hs hitems
    rw [hpush] at hline hpushes
    refine ⟨ho.isOpen, ?_, (List.suffix_cons ..).trans hpushes, hpoppers⟩
    simpa using hline
  · have hle := ho.pushes_le hitems hnone
    refine ⟨ho.isOpen, ?_, hpushes, ?_⟩
    · rw [pushesOf_pop, popsOf_pop, List.drop_eq_nil_of_le (by simp; omega)]
      simp [hitems, hnone]
    · rw [pushesOf_pop, popsOf_pop, List.drop_append_of_le_length hle, ← ho.poppers]

theorem pop_returns (ho : Outstanding steps w) (hs : w.Settled)
    (hm : Move steps.length steps.length w .pop d w') :
    d.popReturns .pop steps.length =
        (((pushesOf steps).drop (popsOf steps).length).head?.map (meeting steps.length)).toList ∧
      ∀ r ∈ d.pushReturns .pop steps.length, r.answer = true := by
  have hfirst : ∀ {x : α} {rest : List α}, w.items = x :: rest →
      (((pushesOf steps).drop (popsOf steps).length).head?.map (meeting steps.length)).toList =
        [.direct steps.length (some x)] := by
    intro x rest hitems
    obtain ⟨n, hhead⟩ := ho.head_push hitems
    have hearlier : n < steps.length :=
      lt_of_mem_issued (List.mem_of_mem_drop (List.mem_of_head? hhead))
    rw [hhead]
    simp [meeting, Return.direct, Nat.max_eq_left (Nat.le_of_lt hearlier)]
  rcases hm.pop_cases hs ho.isOpen with
    ⟨x, rest, hitems, -, rfl, -⟩ | ⟨x, rest, c, y, ps, hitems, -, rfl, -⟩ |
    ⟨hitems, hnone, rfl, -⟩
  · rw [hfirst hitems]
    exact ⟨rfl, by simp [Deed.pushReturns, Step.value?]⟩
  · rw [hfirst hitems]
    exact ⟨rfl, by simp [Deed.pushReturns, Step.value?]⟩
  · rw [List.drop_eq_nil_of_le (ho.pushes_le hitems hnone)]
    exact ⟨rfl, by simp [Deed.pushReturns]⟩

/-! ### Who waits -/

theorem pushers_eq (ho : Outstanding steps w) (hs : w.Settled) :
    w.pushers = (pushesOf steps).drop ((popsOf steps).length + w.capacity) := by
  have hlen := congrArg List.length ho.line
  simp only [List.length_append, List.length_map, List.length_drop] at hlen
  by_cases hpush : w.pushers = []
  · have hle := hs.length_le
    rw [hpush, List.length_nil] at hlen
    rw [hpush, List.drop_eq_nil_of_le]
    omega
  · have hfull := (hs.pushers hpush).2
    have hsome := List.length_pos_of_ne_nil hpush
    rw [List.suffix_iff_eq_drop.mp ho.pushers]
    congr 1
    omega

end Outstanding

/-! ## Runs -/

/-- **After calls that wait where they must, a queue stands as their numbers say**, and its pops
have returned with the pushes of the same number. -/
theorem outstanding_history (capacity : Nat) (steps : List (Step α))
    (hwait : ∀ st ∈ steps, st.mayWait = true) :
    Outstanding steps (history capacity steps).queue.view ∧
      popReturns capacity steps = List.zipWith meeting (popsOf steps) (pushesOf steps) ∧
      ∀ r ∈ pushReturns capacity steps, r.answer = true := by
  induction steps using List.reverseRecOn with
  | nil => exact ⟨outstanding_start capacity, rfl, by simp [pushReturns, History.gather]⟩
  | append_singleton steps st ih =>
    obtain ⟨ho, hpops, hpushes⟩ := ih fun s hs => hwait s (List.mem_append_left _ hs)
    have hst := hwait st (by simp)
    have hsound := sound_history capacity steps
    have hm := hsound.moves st
    rw [steps_history] at hm
    have hanswers : ∀ {rs : List (Return Bool)}, (∀ r ∈ rs, r.answer = true) →
        ∀ r ∈ pushReturns capacity steps ++ rs, r.answer = true := by
      intro rs hrs r hr
      exact (List.mem_append.mp hr).elim (hpushes r) (hrs r)
    rw [history_concat, popReturns_concat, pushReturns_concat, History.popReturns,
      History.pushReturns, steps_history, hpops]
    cases st with
    | push v =>
      obtain ⟨hreturn, hanswer⟩ := ho.push_returns hsound.settled hm
      refine ⟨ho.push hsound.settled hm, ?_, hanswers hanswer⟩
      rw [hreturn, pushesOf_push, popsOf_push, zipWith_concat_right]
    | pop =>
      obtain ⟨hreturn, hanswer⟩ := ho.pop_returns hsound.settled hm
      refine ⟨ho.pop hsound.settled hm, ?_, hanswers hanswer⟩
      rw [hreturn, pushesOf_pop, popsOf_pop, zipWith_concat_left]
    | tryPush _ | tryPop | close | retire => cases hst

/-- **The capacity of a queue shows in nothing but the pushes that wait.**

In a run of pushes and pops that wait where they must, the `k`-th pop returns the value of the
`k`-th push in the step in which both have been issued, and no other pop returns; every push that
returns was accepted. Those pops wait whose push is still to come. The pushes that wait are the ones
that exceed the pops by more than the capacity, which counts as one at least. So with two capacities
the same pops return with the same values in the same steps, and the same pops wait. -/
theorem capacity_is_transparent (steps : List (Step α))
    (hwait : ∀ st ∈ steps, st.mayWait = true) :
    (∀ capacity,
      popReturns capacity steps = List.zipWith meeting (popsOf steps) (pushesOf steps) ∧
      (∀ r ∈ pushReturns capacity steps, r.answer = true) ∧
      (history capacity steps).queue.poppers.toList =
        (popsOf steps).drop (pushesOf steps).length ∧
      (history capacity steps).queue.pushers.toList =
        (pushesOf steps).drop ((popsOf steps).length + max capacity 1)) ∧
    ∀ capacity capacity',
      popReturns capacity steps = popReturns capacity' steps ∧
      (history capacity steps).queue.poppers.toList =
        (history capacity' steps).queue.poppers.toList := by
  have hall := fun capacity => outstanding_history capacity steps hwait
  refine ⟨fun capacity => ?_, fun capacity capacity' => ?_⟩
  · obtain ⟨ho, hpops, hpushes⟩ := hall capacity
    refine ⟨hpops, hpushes, ho.poppers, ?_⟩
    rw [← capacity_history capacity steps]
    exact ho.pushers_eq (sound_history capacity steps).settled
  · obtain ⟨ho, hpops, -⟩ := hall capacity
    obtain ⟨ho', hpops', -⟩ := hall capacity'
    exact ⟨hpops.trans hpops'.symm, ho.poppers.trans ho'.poppers.symm⟩

/-- With room for one value two of three pushes wait, with room for three none does; the pops do not
see it. -/
theorem capacity_is_transparent_one_three :
    let steps : List (Step Char) :=
      [.push 'a', .push 'b', .push 'c', .pop, .pop, .pop, .pop, .pop, .push 'd']
    (∀ st ∈ steps, st.mayWait = true) ∧
      popReturns 1 steps = [⟨3, 3, some 'a'⟩, ⟨4, 4, some 'b'⟩, ⟨5, 5, some 'c'⟩,
        ⟨6, 8, some 'd'⟩] ∧
      popReturns 1 steps = popReturns 3 steps ∧
      (history 1 (steps.take 3)).queue.pushers.toList = [(1, 'b'), (2, 'c')] ∧
      (history 3 (steps.take 3)).queue.pushers.toList = [] := by
  intro steps
  have hwait : ∀ st ∈ steps, st.mayWait = true := by decide
  have hall := capacity_is_transparent steps hwait
  have hfirst := capacity_is_transparent (steps.take 3)
    fun st hst => hwait st (List.mem_of_mem_take hst)
  exact ⟨hwait, (hall.1 1).1, (hall.2 1 3).1, (hfirst.1 1).2.2.2, (hfirst.1 3).2.2.2⟩

end Switchboard.Queue
