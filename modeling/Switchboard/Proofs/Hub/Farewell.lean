import Switchboard.Proofs.Hub.Calm

/-!
# The last value of a hub

A hub whose subscribers have nothing unread publishes at most one value and is closed.

**Who gets it.** Every receive that waits returns with the value, or with nothing if there is none.
Every open subscription on which nothing waits keeps the value for its holder. A subscription that
was cancelled before misses it.
-/

namespace Switchboard

variable {π ρ α : Type}

namespace Pipeline

/-- A pipeline after a value was offered to it that it has room for. -/
def told (p : Pipeline π ρ α) (v : α) : Pipeline π ρ α := if p.isOpen then (p.store v).1 else p

/-- A pipeline after the last value, if there is one, and the end. -/
def bidden (p : Pipeline π ρ α) (last : Option α) : Pipeline π ρ α :=
  (last.elim p p.told).retired

section fresh

variable {p : Pipeline π ρ α}

theorem Settled.hasRoom_of_fresh (h : p.Settled) (hu : p.unread = []) :
    p.buffer.hasRoom = true := by
  rw [h.hasRoom_iff h.capacity_pos, hu, capacity]
  have := h.capacity_pos
  show 0 < _
  omega

theorem Settled.told_of_fresh (h : p.Settled) (hu : p.unread = []) (v : α) :
    (p.told v).Settled ∧ (p.told v).isOpen = p.isOpen ∧ (p.told v).waiting = p.waiting ∧
      (p.told v).receiver = none ∧
      (p.told v).unread = if p.isOpen && p.receiver.isNone then [v] else [] := by
  unfold told
  by_cases hopen : p.isOpen = true
  · obtain ⟨p', hstore, hs', hu', hshell⟩ := h.store (h.hasRoom_of_fresh hu) v
    obtain ⟨-, -, hclosed, hwait, hrec⟩ := shell_eq_iff.mp hshell
    rw [if_pos hopen, hstore]
    refine ⟨hs', ?_, hwait, hrec, ?_⟩
    · rw [isOpen, hclosed]
      rfl
    · rw [hu', hu, hopen]
      cases p.receiver <;> rfl
  · have hclosed : p.buffer.closed = true := by simpa [isOpen] using hopen
    rw [if_neg hopen]
    refine ⟨h, rfl, rfl, (h.idle_of_closed hclosed).2, ?_⟩
    rw [hu, if_neg]
    rw [Bool.and_eq_true, not_and]
    exact fun h => absurd h hopen

theorem Settled.unread_bidden (h : p.Settled) (hu : p.unread = []) (last : Option α) :
    (p.bidden last).unread = if p.isOpen && p.receiver.isNone then last.toList else [] := by
  cases last with
  | none =>
    show p.unread = _
    rw [hu]
    exact (ite_self _).symm
  | some v => exact (h.told_of_fresh hu v).2.2.2.2

theorem Settled.store_received (h : p.Settled) (hu : p.unread = []) (v : α) :
    (p.store v).2 = p.receiver.toList.map (·, some v) := by
  obtain ⟨p', hstore, -⟩ := h.store (h.hasRoom_of_fresh hu) v
  rw [hstore]

end fresh

end Pipeline

namespace Hub

variable {h : Hub π ρ α}

/-- A publish to fresh pipelines visits them in their order and waits at none of them. -/
theorem visit_fresh (q : Publication π α)
    {done rest : List (SubscriptionId × Pipeline (Publication π α) ρ α)}
    (hn : ((done ++ rest).map (·.1)).Nodup)
    (hfresh : ∀ e ∈ rest, e.2.Settled ∧ e.2.unread = []) (n : Nat)
    (received : List (ρ × Option α)) :
    visit q ((rest.filter (·.2.isOpen)).map (·.1))
        ⟨{ h with pipelines := done ++ rest }, n, false, received⟩ =
      ⟨{ h with pipelines := done ++ rest.map fun e => (e.1, e.2.told q.value) },
        n + (rest.filter (·.2.isOpen)).length, false,
        received ++ rest.flatMap fun e => e.2.receiver.toList.map (·, some q.value)⟩ := by
  induction rest generalizing done n received with
  | nil => simp [visit]
  | cons e rest ih =>
    obtain ⟨id, p⟩ := e
    obtain ⟨hs, hu⟩ := hfresh _ (List.mem_cons_self ..)
    have hfresh' := fun e he => hfresh e (List.mem_cons_of_mem _ he)
    have hstep : ∀ p' : Pipeline (Publication π α) ρ α,
        ((done ++ [(id, p')] ++ rest).map (·.1)).Nodup := by
      intro p'
      simpa only [List.append_assoc, List.map_append, List.map_cons, List.singleton_append] using hn
    set h₀ : Hub π ρ α := { h with pipelines := done ++ (id, p) :: rest }
    by_cases hopen : p.isOpen = true
    · have hp : h₀.pipeline? id = some p := pipeline?_split hn rfl
      have hset := setPipeline_split (h := h₀) hn rfl (p.store q.value).1
      have hvisit := ih (hstep (p.store q.value).1) hfresh' (n + 1) (received ++ (p.store q.value).2)
      rw [List.filter_cons, if_pos hopen, List.map_cons, visit]
      simp only [offer, hp, hopen, hs.hasRoom_of_fresh hu, if_true, hset]
      rw [List.append_assoc] at hvisit
      refine hvisit.trans ?_
      simp only [List.map_cons, List.flatMap_cons, List.append_assoc, Pipeline.told, hopen, if_true,
        hs.store_received hu, List.length_cons, Nat.add_assoc, Nat.add_comm 1]
      rfl
    · have hclosed : p.buffer.closed = true := by simpa [Pipeline.isOpen] using hopen
      have hrec : p.receiver = none := (hs.idle_of_closed hclosed).2
      have hvisit := ih (hstep p) hfresh' n received
      rw [List.filter_cons, if_neg hopen]
      rw [List.append_assoc] at hvisit
      refine hvisit.trans ?_
      simp only [List.map_cons, List.flatMap_cons, List.append_assoc, Pipeline.told, if_neg hopen,
        hrec]
      rfl

/-- The receives that wait in a hub. -/
def waiters (h : Hub π ρ α) : List ρ := h.pipelines.flatMap (·.2.receiver.toList)

theorem flatMap_receivers (pipelines : List (SubscriptionId × Pipeline (Publication π α) ρ α))
    (v : Option α) :
    (pipelines.flatMap fun e => e.2.receiver.toList.map (·, v)) =
      (pipelines.flatMap (·.2.receiver.toList)).map (·, v) :=
  List.map_flatMap.symm

section ending

variable (hl : h.Calm) (hc : h.closed = false)
  (hfresh : ∀ id p, h.pipeline? id = some p → p.unread = [])

include hl hc hfresh

/-- Publishing to fresh subscriptions reaches all of them. -/
theorem Calm.publish_fresh (caller : π) (v : α) :
    (h.publish caller v).received = h.waiters.map (·, some v) ∧
      (h.publish caller v).hub = { h with
        published := h.published + 1
        pipelines := h.pipelines.map fun e => (e.1, e.2.told v) } ∧
      (h.publish caller v).result = .returned h.subscriberCount := by
  have hfresh' : ∀ e ∈ h.pipelines, e.2.Settled ∧ e.2.unread = [] := fun e he =>
    ⟨(hl.sound.fits e he).settled, hfresh e.1 e.2 (hl.sound.pipeline?_of_mem he)⟩
  set h₁ : Hub π ρ α := { h with published := h.published + 1 } with hh₁
  have hn : (([] ++ h.pipelines).map Prod.fst).Nodup := hl.sound.nodup
  have hvisit := visit_fresh (h := h₁) ⟨caller, [], v, [], 0, []⟩ hn hfresh' 0 []
  have htargets : h₁.targets [] = (h.pipelines.filter (·.2.isOpen)).map (·.1) := by
    simp [targets, registered, hh₁]
  have hcount : h.subscriberCount = 0 + (h.pipelines.filter (·.2.isOpen)).length := by
    rw [subscriberCount, registered, List.length_map, Nat.zero_add]
  have heach : publishEach caller [] [v] ⟨h, 0, false, []⟩ =
      ⟨{ h₁ with pipelines := h.pipelines.map fun e => (e.1, e.2.told v) }, h.subscriberCount, false,
        h.waiters.map (·, some v)⟩ := by
    rw [publishEach, if_neg (by simp [hc]), hcount]
    show (if (visit ⟨caller, [], v, [], 0, []⟩ (h₁.targets []) ⟨h₁, 0, false, []⟩).parked = true
      then visit ⟨caller, [], v, [], 0, []⟩ (h₁.targets []) ⟨h₁, 0, false, []⟩
      else visit ⟨caller, [], v, [], 0, []⟩ (h₁.targets []) ⟨h₁, 0, false, []⟩) = _
    rw [ite_self, htargets]
    refine hvisit.trans ?_
    rw [flatMap_receivers]
    rfl
  rw [publish, publishAll, heach]
  exact ⟨rfl, rfl, rfl⟩

omit hfresh in
theorem Calm.close_eq : h.close.received = h.waiters.map (·, none) ∧
    h.close.hub = { h with
      pipelines := h.pipelines.map fun e => (e.1, e.2.retired), closed := true } := by
  rw [close, if_neg (by simp [hc]), hl.sound.retireAll_eq, hl.idle]
  exact ⟨flatMap_receivers _ _, rfl⟩

end ending

/-- A hub after its last value, if there is one, and its end. -/
structure Ended (last : Option α) (h h' : Hub π ρ α) : Prop where
  calm : h'.Calm
  closed : h'.closed = true
  lastId : h'.lastId = h.lastId
  pipeline : ∀ id, h'.pipeline? id = (h.pipeline? id).map (·.bidden last)

theorem Calm.ended_close (hl : h.Calm) (hc : h.closed = false) : Ended none h h.close.hub := by
  have hsound := h.close_moves.turns.sound hl.sound
  rw [(hl.close_eq hc).2] at hsound ⊢
  refine ⟨⟨⟨hsound, Or.inr (Or.inl rfl)⟩, parkedPublications_of_waiting fun e he => ?_⟩, rfl, rfl,
    fun id => lookup_map (fun _ => Pipeline.retired) h.pipelines id⟩
  obtain ⟨e', -, rfl⟩ := List.mem_map.mp he
  rfl

/-- **The last value goes to whoever waits, or is kept for the holder.** -/
theorem Calm.ended_publish (hl : h.Calm) (hc : h.closed = false)
    (hfresh : ∀ id p, h.pipeline? id = some p → p.unread = []) (caller : π) (v : α) :
    Ended (some v) h (h.publish caller v).hub.close.hub ∧
      (h.publish caller v).received ++ (h.publish caller v).hub.close.received =
        h.waiters.map (·, some v) := by
  obtain ⟨hreceived, hhub, -⟩ := hl.publish_fresh hc hfresh caller v
  have htold : ∀ e ∈ h.pipelines, (e.2.told v).waiting = ∅ ∧ (e.2.told v).receiver = none := by
    intro e he
    have hu := hfresh e.1 e.2 (hl.sound.pipeline?_of_mem he)
    obtain ⟨-, -, hwait, hrec, -⟩ := (hl.sound.fits e he).settled.told_of_fresh hu v
    exact ⟨hwait.trans (waiting_of_idle hl.idle he), hrec⟩
  have hsound := (h.publishAll_turns caller [] [v]).sound hl.sound
  have howned := (publishAll_frame h caller [] [v]).1
  set h₁ : Hub π ρ α := (h.publish caller v).hub
  have hpipes : h₁.pipelines = h.pipelines.map fun e => (e.1, e.2.told v) := by rw [hhub]
  have hc₁ : h₁.closed = false := by rw [hhub]; exact hc
  have hidle : h₁.parkedPublications = [] := by
    refine parkedPublications_of_waiting fun e he => ?_
    rw [hpipes] at he
    obtain ⟨e', he', rfl⟩ := List.mem_map.mp he
    exact (htold e' he').1
  have hl₁ : h₁.Calm := by
    refine ⟨⟨hsound, ?_⟩, hidle⟩
    rcases hl.anchored with ha | ha | ha
    · exact Or.inl (howned.trans ha)
    · rw [hc] at ha
      cases ha
    · exact absurd hl.idle ha
  have hnone : h₁.waiters = [] := by
    refine List.flatMap_eq_nil_iff.mpr fun e he => ?_
    rw [hpipes] at he
    obtain ⟨e', he', rfl⟩ := List.mem_map.mp he
    rw [(htold e' he').2]
    rfl
  have hend := hl₁.ended_close hc₁
  refine ⟨⟨hend.calm, hend.closed, hend.lastId.trans (by rw [hhub]), fun id => ?_⟩, ?_⟩
  · rw [hend.pipeline, pipeline?, hpipes, lookup_map fun _ (p : Pipeline (Publication π α) ρ α) =>
      p.told v, Option.map_map]
    rfl
  · rw [(hl₁.close_eq hc₁).1, hnone, hreceived]
    exact List.append_nil _

end Hub

end Switchboard
