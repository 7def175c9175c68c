import Switchboard.Proofs.Hub.Lossy

/-!
# What a turn counts

For the counters of a hub and for the results of its publishes it does not matter where a publish
is, only its *standing*: its caller, the number of buffers that took its value so far, and the
values that its call has left. A turn changes the standing of one publish at most, and of the
counters what goes with it (`Shift`).

**Credit.** What a publish has been credited with is what it returns, so over any stretch the values
stored for a caller are what its publishes return, and what those still under way are credited with
(`Turns.credit`).

**Values left.** A value counts as published when its turn comes. While the hub is open, the values
published and those left in the calls under way are together as many as the values called for
(`Turns.published`).
-/

namespace Switchboard

/-- What counts of a publish under way. -/
structure Standing (π α : Type) where
  caller : π
  /-- The number of buffers that took its value so far. -/
  accepted : Nat
  /-- The values that its call has left. -/
  later : List α

def Publication.standing {π α : Type} (q : Publication π α) : Standing π α :=
  ⟨q.caller, q.accepted, q.later⟩

namespace Hub

variable {π ρ α : Type}

/-- The standings of the publishes under way. -/
def standings (s : Scene π ρ α) : List (Standing π α) := (flight s).map (·.standing)

/-- The counters of a hub. -/
def counts (h : Hub π ρ α) : Nat × Nat := (h.published, h.dropped)

/-! ## Silent logs -/

/-- Whether an event concerns the results of publishes. -/
def Event.counts : Event π ρ α → Bool
  | .called _ | .stored _ _ _ | .returned _ _ => true
  | .received _ _ | .answered _ _ _ | .cancelled _ | .abandoned _ => false

/-- Nothing is called, stored or returned. -/
def Silent (log : List (Event π ρ α)) : Prop := ∀ e ∈ log, e.counts = false

section silent

variable {log : List (Event π ρ α)}

theorem Silent.calls (h : Silent log) : callsIn log = [] := by
  refine List.filterMap_eq_nil_iff.mpr fun e he => ?_
  have := h e he
  cases e <;> simp_all [Event.counts]

theorem Silent.stores (h : Silent log) : storesIn log = [] := by
  refine List.filterMap_eq_nil_iff.mpr fun e he => ?_
  have := h e he
  cases e <;> simp_all [Event.counts]

theorem Silent.returns (h : Silent log) : returnsIn log = [] := by
  refine List.filterMap_eq_nil_iff.mpr fun e he => ?_
  have := h e he
  cases e <;> simp_all [Event.counts]

theorem silent_nil : Silent ([] : List (Event π ρ α)) := fun _ he => absurd he List.not_mem_nil

theorem silent_answers (id : SubscriptionId) (received : List (ρ × Option α)) :
    Silent (answers id received : List (Event π ρ α)) := by
  intro e he
  obtain ⟨r, -, rfl⟩ := List.mem_map.mp he
  rfl

theorem silent_retireAllLog (pipelines : List (SubscriptionId × Pipeline (Publication π α) ρ α)) :
    Silent (retireAllLog pipelines : List (Event π ρ α)) := by
  intro e he
  simp only [retireAllLog, List.mem_flatMap] at he
  obtain ⟨⟨id, p⟩, -, he⟩ := he
  split at he
  · exact silent_answers id _ e he
  · cases he

end silent

/-! ## Shifts -/

/-- A change of one standing, with what is noted of it and what it does to the counters. -/
inductive Shift (h h' : Hub π ρ α) :
    List (Standing π α) → List (Event π ρ α) → List (Standing π α) → Prop
  | still {log : List (Event π ρ α)} : Silent log → h'.counts = h.counts → Shift h h' [] log []
  | store (x : Standing π α) {id : SubscriptionId} {log : List (Event π ρ α)} :
      callsIn log = [] → storesIn log = [(id, x.caller)] → returnsIn log = [] →
      h'.counts = h.counts → Shift h h' [x] log [{ x with accepted := x.accepted + 1 }]
  | miss (x : Standing π α) :
      h.policy = .lossy → h'.published = h.published → Shift h h' [x] [] [x]
  | finish (caller : π) (n : Nat) :
      h'.counts = h.counts → Shift h h' [⟨caller, n, []⟩] [.returned caller n] []
  | skip (x : Standing π α) {v : α} {later : List α} :
      x.later = v :: later → h'.closed = true → h'.counts = h.counts →
      Shift h h' [x] [] [{ x with later }]
  | next (x : Standing π α) {v : α} {later : List α} :
      x.later = v :: later → h.closed = false → h'.published = h.published + 1 →
      h'.dropped = h.dropped → Shift h h' [x] [] [{ x with later }]
  | call (caller : π) (later : List α) :
      h'.dropped = h.dropped → Shift h h' [] [.called caller] [⟨caller, 0, later⟩]
  | decline (caller : π) :
      h'.counts = h.counts → Shift h h' [] [.called caller, .returned caller 0] []

/-- Among the publishes under way there is one shift. -/
def Shifts (s : Scene π ρ α) (log : List (Event π ρ α)) (t : Scene π ρ α) : Prop :=
  ∃ old new rest, (standings s).Perm (old ++ rest) ∧ (standings t).Perm (new ++ rest) ∧
    Shift s.hub t.hub old log new

section shifts

variable {s t : Scene π ρ α} {log : List (Event π ρ α)} {h : Hub π ρ α} {id : SubscriptionId}
  {p : Pipeline (Publication π α) ρ α}

theorem Shifts.still (hperm : (standings s).Perm (standings t)) (hlog : Silent log)
    (hcounts : t.hub.counts = s.hub.counts) : Shifts s log t :=
  ⟨[], [], standings t, hperm, .refl _, .still hlog hcounts⟩

theorem exists_parkedPublications (hs : h.Sound) (hp : h.pipeline? id = some p) :
    ∃ rest, h.parkedPublications.Perm (p.parked ++ rest) ∧
      ∀ p', (h.setPipeline id p').parkedPublications.Perm (p'.parked ++ rest) := by
  obtain ⟨l₁, l₂, hl, hset⟩ := exists_split hs.nodup hp
  refine ⟨l₁.flatMap (·.2.parked) ++ l₂.flatMap (·.2.parked), ?_, fun p' => ?_⟩
  · rw [parkedPublications, hl, List.flatMap_append, List.flatMap_cons]
    exact List.perm_append_comm_assoc ..
  · rw [parkedPublications, hset, List.flatMap_append, List.flatMap_cons]
    exact List.perm_append_comm_assoc ..

theorem parkedPublications_retired (h : Hub π ρ α) (closed : Bool) :
    parkedPublications { h with pipelines := h.pipelines.map fun e => (e.1, e.2.retired), closed } =
      [] := by
  refine parkedPublications_of_waiting fun e he => ?_
  obtain ⟨e₀, -, rfl⟩ := List.mem_map.mp he
  rfl

theorem parkedPublications_forget (hs : h.Sound)
    (hshut : ∀ p, h.pipeline? id = some p → p.isOpen = false) :
    parkedPublications { h with pipelines := h.pipelines.filter (·.1 != id) } =
      h.parkedPublications := by
  have hnone : ∀ e ∈ h.pipelines, e.1 = id → e.2.parked = [] := by
    rintro ⟨i, p⟩ he rfl
    have hc : p.buffer.closed = true := by
      simpa [Pipeline.isOpen] using hshut p (hs.pipeline?_of_mem he)
    rw [Pipeline.parked, ((hs.fits _ he).settled.idle_of_closed hc).1]
    rfl
  rw [parkedPublications, parkedPublications]
  revert hnone
  induction h.pipelines with
  | nil => exact fun _ => rfl
  | cons e rest ih =>
    intro hnone
    have ih := ih fun e he => hnone e (List.mem_cons_of_mem _ he)
    by_cases he : e.1 = id
    · rw [List.filter_cons_of_neg (by simpa using he), ih, List.flatMap_cons,
        hnone e (List.mem_cons_self ..) he, List.nil_append]
    · rw [List.filter_cons_of_pos (by simpa using he), List.flatMap_cons, List.flatMap_cons, ih]

theorem Move.shifts (h : Move s log t) (hs : s.hub.Sound) : Shifts s log t := by
  cases h with
  | @store h q moving id ahead p p' received hahead hp hopen hroom hstore =>
    change h.Sound at hs
    obtain ⟨-, -, -, hshell⟩ := (hs.fits_of hp).settled.of_store hroom hstore
    obtain ⟨-, -, -, hw, -⟩ := Pipeline.shell_eq_iff.mp hshell
    have hsame := parkedPublications_setPipeline hs hp hw
    refine ⟨[q.standing], [_], (moving ++ h.parkedPublications).map (·.standing), .refl _, ?_,
      .store q.standing (silent_answers id received).calls
        (show storesIn _ = [(id, q.caller)] from ?_) (silent_answers id received).returns rfl⟩
    · rw [standings, flight, hsame]
      exact .refl _
    · exact congrArg ((id, q.caller) :: ·) (silent_answers id received).stores
  | pass hahead _ => exact .still (.refl _) silent_nil rfl
  | @miss h q moving id ahead p hahead _ _ _ hpol =>
    exact ⟨[q.standing], [q.standing], (moving ++ h.parkedPublications).map (·.standing), .refl _,
      .refl _, .miss q.standing hpol rfl⟩
  | @park h q moving id ahead p hahead hp hopen hroom _ =>
    change h.Sound at hs
    obtain ⟨rest, hrest, hset⟩ := exists_parkedPublications hs hp
    refine .still ?_ silent_nil rfl
    set traveller : Publication π α := { q with ahead }
    have hparked : (h.setPipeline id (p.park traveller q.value)).parkedPublications.Perm
        (traveller :: h.parkedPublications) := by
      refine (hset _).trans (.trans ?_ (hrest.symm.cons traveller))
      rw [Pipeline.parked_park, List.append_assoc]
      exact List.perm_middle
    have hflight : (moving ++ (h.setPipeline id (p.park traveller q.value)).parkedPublications).Perm
        (traveller :: (moving ++ h.parkedPublications)) :=
      (hparked.append_left moving).trans List.perm_middle
    exact (hflight.map (·.standing)).symm
  | @finish h q moving hahead hlater =>
    refine ⟨[q.standing], [], (moving ++ h.parkedPublications).map (·.standing), .refl _, .refl _,
      ?_⟩
    rw [Publication.standing, hlater]
    exact .finish q.caller q.accepted rfl
  | @skip h q moving v later hahead hlater hc =>
    exact ⟨[q.standing], [_], (moving ++ h.parkedPublications).map (·.standing), .refl _, .refl _,
      .skip q.standing hlater hc rfl⟩
  | @next h q moving v later hahead hlater hc =>
    exact ⟨[q.standing], [_], (moving ++ h.parkedPublications).map (·.standing), .refl _, .refl _,
      .next q.standing hlater hc rfl rfl⟩
  | @read h id p p' reception publication hp hread =>
    change h.Sound at hs
    obtain ⟨rest, hrest, hset⟩ := exists_parkedPublications hs hp
    rw [(hs.fits_of hp).settled.parked_of_tryReceive hread] at hrest
    cases publication with
    | none =>
      refine .still (List.Perm.map _ (hrest.trans (hset p').symm)) ?_ rfl
      cases reception <;> simp [Silent, readLog, Event.counts]
    -- The publish let in has stored its value and moves on.
    | some q =>
      have hperm := (hrest.trans ((hset p').symm.cons q)).map (·.standing)
      refine ⟨[q.standing], [_], _, hperm, .refl _,
        .store q.standing ?_ (show storesIn _ = [(id, q.caller)] from ?_) ?_ rfl⟩
      · cases reception <;> rfl
      · cases reception <;> rfl
      · cases reception <;> rfl
  | @shut h pipelines received publications _ hret =>
    change h.Sound at hs
    rw [hs.retireAll_eq, Prod.mk.injEq, Prod.mk.injEq] at hret
    obtain ⟨rfl, -, rfl⟩ := hret
    refine .still ?_ (silent_retireAllLog _) rfl
    rw [standings, standings, flight, flight, parkedPublications_retired, List.append_nil,
      List.map_map]
    exact .refl _

/-- **A turn shifts one publish at most.** -/
theorem Turn.shifts (h : Turn s log t) (hs : s.hub.Sound) : Shifts s log t := by
  cases h with
  | move h => exact h.shifts hs
  | subscribe h n hc =>
    refine .still ?_ silent_nil rfl
    have hsame : (h.register (.new n)).1.parkedPublications = h.parkedPublications := by
      rw [parkedPublications, register, List.flatMap_append]
      exact List.append_nil _
    rw [standings, standings, flight, flight, hsame]
  | call h caller order v later hc =>
    exact ⟨[], [_], standings ⟨h, []⟩, .refl _, .refl _, .call caller later rfl⟩
  | decline h caller => exact ⟨[], [], standings ⟨h, []⟩, .refl _, .refl _, .decline caller rfl⟩
  | @cancel h id p p' received publications hp hopen hcancel =>
    change h.Sound at hs
    rw [(hs.fits_of hp).settled.cancel_eq, Prod.mk.injEq, Prod.mk.injEq] at hcancel
    obtain ⟨rfl, rfl, rfl⟩ := hcancel
    obtain ⟨rest, hrest, hset⟩ := exists_parkedPublications hs hp
    have hlog : Silent (.cancelled id :: answers id (p.receiver.toList.map (·, none)) :
        List (Event π ρ α)) := List.forall_mem_cons.mpr ⟨rfl, silent_answers id _⟩
    refine .still ?_ hlog rfl
    have hnone : p.cancelled.parked = [] := rfl
    have hperm := hset p.cancelled
    rw [hnone, List.nil_append] at hperm
    have hflight := (hrest.trans (hperm.symm.append_left p.parked)).map (·.standing)
    rw [List.map_append] at hflight
    rw [standings, standings, flight, flight, @List.map_append _ _ _ (p.parked.map _),
      List.map_map]
    exact hflight
  | abandon h id hshut =>
    change h.Sound at hs
    refine .still ?_ (by simp [Silent, Event.counts]) rfl
    have hsame : parkedPublications { h with pipelines := h.pipelines.filter (·.1 != id) } =
        h.parkedPublications := parkedPublications_forget hs hshut
    rw [standings, standings, flight, flight, hsame]
  | @await h id p caller hp hopen hu =>
    refine .still ?_ silent_nil rfl
    have hsame : (h.setPipeline id { p with receiver := some caller }).parkedPublications =
        h.parkedPublications := parkedPublications_setPipeline hs hp rfl
    rw [standings, standings, flight, flight, hsame]
  | disown h => exact .still (.refl _) silent_nil rfl

end shifts

/-! ## Credit -/

section credit

variable {s t : Scene π ρ α} {log : List (Event π ρ α)} [DecidableEq π] (caller : π)

/-- What the publishes of a caller have been credited with. -/
def credit (xs : List (Standing π α)) : Nat :=
  (xs.map fun x => if x.caller = caller then x.accepted else 0).sum

/-- The subscriptions whose buffers took a value of a caller's publishes. -/
def acceptors (log : List (Event π ρ α)) : List SubscriptionId :=
  (storesIn log).filterMap fun e => if e.2 = caller then some e.1 else none

/-- What the publishes of a caller returned, in all. -/
def earned (log : List (Event π ρ α)) : Nat :=
  ((returnsIn log).map fun r => if r.1 = caller then r.2 else 0).sum

@[simp] theorem credit_append (xs ys : List (Standing π α)) :
    credit caller (xs ++ ys) = credit caller xs + credit caller ys := by
  simp [credit]

@[simp] theorem acceptors_append (log log' : List (Event π ρ α)) :
    acceptors caller (log ++ log') = acceptors caller log ++ acceptors caller log' := by
  simp [acceptors]

@[simp] theorem earned_append (log log' : List (Event π ρ α)) :
    earned caller (log ++ log') = earned caller log + earned caller log' := by
  simp [earned]

theorem credit_perm {xs ys : List (Standing π α)} (h : xs.Perm ys) :
    credit caller xs = credit caller ys :=
  (h.map _).sum_eq

/-- What a shift credits a caller with is stored, and what it takes is returned. -/
theorem Shift.credit {h h' : Hub π ρ α} {old new : List (Standing π α)}
    (hshift : Shift h h' old log new) :
    credit caller old + (acceptors caller log).length = credit caller new + earned caller log := by
  cases hshift with
  | still hlog _ => simp [acceptors, earned, hlog.stores, hlog.returns]
  | store x _ hstores hreturns _ =>
    simp only [Hub.credit, acceptors, earned, hstores, hreturns]
    by_cases hx : x.caller = caller
    · simp [hx]
    · simp [hx]
  | miss x _ _ => rfl
  | finish c n _ => simp [Hub.credit, acceptors, earned, storesIn, returnsIn]
  | skip x _ _ _ => rfl
  | next x _ _ _ _ => rfl
  | call c later _ => simp [Hub.credit, acceptors, earned, storesIn, returnsIn]
  | decline c _ => simp [Hub.credit, acceptors, earned, storesIn, returnsIn]

theorem Turn.credit (h : Turn s log t) (hs : s.hub.Sound) :
    credit caller (standings s) + (acceptors caller log).length =
      credit caller (standings t) + earned caller log := by
  obtain ⟨old, new, rest, hold, hnew, hshift⟩ := h.shifts hs
  have := hshift.credit caller
  rw [credit_perm caller hold, credit_perm caller hnew, credit_append, credit_append]
  omega

/-- **Credit is kept.** -/
theorem Turns.credit (h : Turns s log t) (hs : s.hub.Sound) :
    credit caller (standings s) + (acceptors caller log).length =
      credit caller (standings t) + earned caller log := by
  induction h with
  | refl s => simp [acceptors, earned, storesIn, returnsIn]
  | head hm _ ih =>
    have := hm.credit caller hs
    have := ih (hm.sound hs)
    rw [acceptors_append, earned_append, List.length_append]
    omega

end credit

/-! ## The counters -/

section counters

variable {s t : Scene π ρ α} {log : List (Event π ρ α)}

/-- The number of values left in the calls under way. -/
def unsent (s : Scene π ρ α) : Nat := ((standings s).map (·.later.length)).sum

theorem unsent_of_perm {xs : List (Standing π α)} (h : (standings s).Perm xs) :
    unsent s = (xs.map (·.later.length)).sum :=
  (h.map _).sum_eq

/-- While the hub is open, a value that is not left any more has been published; a closed hub
publishes nothing. -/
theorem Turn.published (h : Turn s log t) (hs : s.hub.Sound) (hcalls : callsIn log = []) :
    (t.hub.closed = false → t.hub.published + unsent t = s.hub.published + unsent s) ∧
      (s.hub.closed = true → t.hub.published = s.hub.published) := by
  obtain ⟨old, new, rest, hold, hnew, hshift⟩ := h.shifts hs
  rw [unsent_of_perm hold, unsent_of_perm hnew]
  cases hshift with
  | still _ hcounts =>
    have hpub : t.hub.published = s.hub.published := congrArg Prod.fst hcounts
    exact ⟨fun _ => by rw [hpub], fun _ => hpub⟩
  | store x _ _ _ hcounts =>
    have hpub : t.hub.published = s.hub.published := congrArg Prod.fst hcounts
    exact ⟨fun _ => by rw [hpub]; rfl, fun _ => hpub⟩
  | miss x _ hpub => exact ⟨fun _ => by rw [hpub], fun _ => hpub⟩
  | finish c n hcounts =>
    have hpub : t.hub.published = s.hub.published := congrArg Prod.fst hcounts
    exact ⟨fun _ => by simp [hpub], fun _ => hpub⟩
  | skip x _ hclosed hcounts =>
    have hpub : t.hub.published = s.hub.published := congrArg Prod.fst hcounts
    exact ⟨fun hopen => by simp [hclosed] at hopen, fun _ => hpub⟩
  | next x hlater hopen hpub _ =>
    refine ⟨fun _ => ?_, fun hclosed => by simp [hopen] at hclosed⟩
    simp only [List.map_append, List.map_cons, List.map_nil, List.sum_append, List.sum_cons,
      List.sum_nil, hlater, List.length_cons, hpub]
    omega
  | call c later _ => cases hcalls
  | decline c _ => cases hcalls

theorem Turns.published (h : Turns s log t) (hs : s.hub.Sound) (hcalls : callsIn log = []) :
    (t.hub.closed = false → t.hub.published + unsent t = s.hub.published + unsent s) ∧
      (s.hub.closed = true → t.hub.published = s.hub.published) := by
  induction h with
  | refl s => exact ⟨fun _ => rfl, fun _ => rfl⟩
  | @head s m t _ _ hm hrest ih =>
    rw [callsIn_append, List.append_eq_nil_iff] at hcalls
    obtain ⟨hopen, hclosed⟩ := hm.published hs hcalls.1
    obtain ⟨hopen', hclosed'⟩ := ih (hm.sound hs) hcalls.2
    refine ⟨fun ht => ?_, fun hc => (hclosed' (hm.closed hc)).trans (hclosed hc)⟩
    have hmid : m.hub.closed = false := by
      by_contra hc
      rw [Turns.closed hrest (by simpa using hc)] at ht
      cases ht
    exact (hopen' ht).trans (hopen hmid)

theorem Turns.plain (h : Turns s log t) (hs : s.hub.Sound) (hcalls : callsIn log = [])
    (hplain : ∀ x ∈ standings s, x.later = []) : ∀ x ∈ standings t, x.later = [] := by
  induction h with
  | refl _ => exact hplain
  | head hm _ ih =>
    rw [callsIn_append, List.append_eq_nil_iff] at hcalls
    refine ih (hm.sound hs) hcalls.2 fun x hx => ?_
    obtain ⟨old, new, rest, hold, hnew, hshift⟩ := hm.shifts hs
    replace hplain : ∀ y ∈ old ++ rest, y.later = [] := fun y hy => hplain y (hold.mem_iff.mpr hy)
    rcases List.mem_append.mp (hnew.mem_iff.mp hx) with hx | hx
    · have hfirst : ∀ y, old = [y] → y.later = [] := by
        rintro y rfl
        exact hplain y (List.mem_cons_self ..)
      cases hshift with
      | still _ _ => cases hx
      | store y _ _ _ _ =>
        rw [List.mem_singleton.mp hx]
        exact hfirst y rfl
      | miss y _ _ =>
        rw [List.mem_singleton.mp hx]
        exact hfirst y rfl
      | finish _ _ _ => cases hx
      | skip y hlater _ _ =>
        rw [hfirst y rfl] at hlater
        cases hlater
      | next y hlater _ _ _ =>
        rw [hfirst y rfl] at hlater
        cases hlater
      | call _ _ _ => cases hcalls.1
      | decline _ _ => cases hx
    · exact hplain x (List.mem_append_right _ hx)

/-- A reliable hub drops nothing. -/
theorem Turns.dropped (h : Turns s log t) (hs : s.hub.Sound) (hpol : s.hub.policy = .reliable) :
    t.hub.dropped = s.hub.dropped := by
  induction h with
  | refl _ => rfl
  | head hm _ ih =>
    refine (ih (hm.sound hs) (hm.policy.trans hpol)).trans ?_
    obtain ⟨old, new, rest, -, -, hshift⟩ := hm.shifts hs
    cases hshift with
    | still _ hcounts => exact congrArg Prod.snd hcounts
    | store _ _ _ _ hcounts => exact congrArg Prod.snd hcounts
    | miss _ hlossy _ => simp [hpol] at hlossy
    | finish _ _ hcounts => exact congrArg Prod.snd hcounts
    | skip _ _ _ hcounts => exact congrArg Prod.snd hcounts
    | next _ _ _ _ hdropped => exact hdropped
    | call _ _ hdropped => exact hdropped
    | decline _ hcounts => exact congrArg Prod.snd hcounts

/-- Where nothing is under way and nothing is called, nothing is counted. -/
theorem Turns.idle (h : Turns s log t) (hs : s.hub.Sound) (hidle : standings s = [])
    (hcalls : callsIn log = []) :
    standings t = [] ∧ returnsIn log = [] ∧ t.hub.counts = s.hub.counts := by
  induction h with
  | refl _ => exact ⟨hidle, rfl, rfl⟩
  | @head s m t l log hm hrest ih =>
    rw [callsIn_append, List.append_eq_nil_iff] at hcalls
    obtain ⟨old, new, rest, hold, hnew, hshift⟩ := hm.shifts hs
    have hnone : old = [] ∧ rest = [] := by simpa [hidle] using hold
    obtain ⟨rfl, rfl⟩ := hnone
    generalize hxs : ([] : List (Standing π α)) = xs at hshift
    cases hshift with
    | still hlog hcounts =>
      obtain ⟨hend, hret, hcounts'⟩ := ih (hm.sound hs) (by simpa using hnew) hcalls.2
      exact ⟨hend, by rw [returnsIn_append, hlog.returns, hret]; rfl, hcounts'.trans hcounts⟩
    | call _ _ _ => cases hcalls.1
    | decline _ _ => cases hcalls.1
    | _ => cases hxs

end counters

end Hub

end Switchboard
