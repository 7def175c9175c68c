import Switchboard.Proofs.Hub.BlockingQueue
import Switchboard.Proofs.Hub.Confined

/-!
# The line at a subscription that stands alone

What the holder of the only subscription of a reliable hub has still to receive.

**The line** (`Pipeline.line`). The unread values come first, and behind them those of the parked
publishes, in the order in which these arrived.

**Alone** (`Lone`). While the hub has no other subscription, a publish has one target, and a parked
one returns as soon as it is let in.

**Main statements** (`Lone.publish`, `Lone.tryReceive`, `Lone.receive`, `Lone.close`). A publish puts
its value at the end of the line, or gives it to the receive that waits when the line is empty. A
receive takes the head of the line. Closing leaves the line as it is, when nothing is parked.
-/

namespace Switchboard

variable {π ρ α : Type}

/-- The values that a holder has still to receive: those unread, and those of the publishes that
wait. -/
def Pipeline.line (p : Pipeline π ρ α) : List α := p.unread ++ p.waiting.toList.map (·.2)

theorem Pipeline.Settled.unread_of_line {p : Pipeline π ρ α} (h : p.Settled) {v : α} {rest : List α}
    (hline : p.line = v :: rest) : ∃ unread, p.unread = v :: unread := by
  cases hu : p.unread with
  | nil =>
    have hne : p.waiting.toList ≠ [] := by
      intro hnil
      rw [line, hu, hnil] at hline
      cases hline
    obtain ⟨-, hfull⟩ := h.full_of_waiting hne
    rw [hu, List.length_nil, Pipeline.capacity] at hfull
    have hpos := h.room_pos
    omega
  | cons w unread =>
    rw [line, hu, List.cons_append, List.cons.injEq] at hline
    exact ⟨unread, by rw [hline.1]⟩

namespace Hub

/-- A reliable hub in the hands of its owner has the pipeline `p` of the subscription `S` and no
other. -/
structure Lone (S : SubscriptionId) (h : Hub π ρ α) (p : Pipeline (Publication π α) ρ α) :
    Prop where
  good : h.Good
  reliable : h.policy = .reliable
  owned : h.owned = true
  only : h.pipelines = [(S, p)]
  closed : p.buffer.closed = h.closed
  last : ∀ w ∈ p.parked, w.IsLast

section lone

variable {S id : SubscriptionId} {h h' : Hub π ρ α} {p p' : Pipeline (Publication π α) ρ α}

theorem lone_of_subscribe (hg : h.Good) (hpol : h.policy = .reliable) (ho : h.owned = true)
    (hc : h.closed = false) (hnone : h.pipelines = []) (n : Nat) :
    Lone (h.lastId + 1) (h.subscribe n).1 (.new n) := by
  have hsub : h.subscribe n = h.register (.new n) := if_neg (by simp [hc])
  have hsound := (h.subscribe_turns n).sound hg.sound
  rw [hsub] at hsound ⊢
  refine ⟨⟨hsound, Or.inl ho⟩, hpol, ho, ?_, hc.symm, fun w hw => absurd hw List.not_mem_nil⟩
  show h.pipelines ++ _ = _
  rw [hnone]
  rfl

theorem Lone.pipeline? (hl : Lone S h p) : h.pipeline? S = some p := by
  rw [Hub.pipeline?, hl.only]
  simp

theorem Lone.pipeline?_of_ne (hl : Lone S h p) (hne : id ≠ S) : h.pipeline? id = none := by
  rw [Hub.pipeline?, hl.only]
  simp [hne]

theorem Lone.settled (hl : Lone S h p) : p.Settled := (hl.good.sound.fits_of hl.pipeline?).settled

theorem Lone.isWaiting (hl : Lone S h p) : h.isWaiting S = p.receiver.isSome :=
  isWaiting_eq hl.pipeline?

theorem Lone.change (hl : Lone S h p) (hs : h'.Sound) (hpol : h'.policy = h.policy)
    (ho : h'.owned = h.owned) (honly : h'.pipelines = [(S, p')])
    (hc : p'.buffer.closed = h'.closed) (hlast : ∀ w ∈ p'.parked, w.IsLast) : Lone S h' p' :=
  ⟨⟨hs, Or.inl (ho.trans hl.owned)⟩, hpol.trans hl.reliable, ho.trans hl.owned, honly, hc, hlast⟩

theorem Lone.targets (hl : Lone S h p) (hc : h.closed = false) : h.targets [] = [S] := by
  simp [Hub.targets, registered, hl.only, Pipeline.isOpen, hl.closed, hc]

/-! ## Publishing -/

/-- **A publish on an open hub comes behind the line.** -/
theorem Lone.publish (hl : Lone S h p) (hc : h.closed = false) (caller : π) (v : α) :
    ∃ p', Lone S (h.publish caller v).hub p' ∧
      (∀ r, p'.receiver = some r → p.receiver = some r) ∧
      (∀ x ∈ (h.publish caller v).received, p.receiver = some x.1) ∧
      (h.publish caller v).received.filterMap (·.2) ++ p'.line = p.line ++ [v] := by
  have hsound := (h.publishAll_turns caller [] [v]).sound hl.good.sound
  have hopen : p.isOpen = true := by
    rw [Pipeline.isOpen, hl.closed, hc]
    rfl
  have hpublish := publishAll_one hc (hl.targets hc) caller v
  set hub : Hub π ρ α := { h with published := h.published + 1 }
  set w : Publication π α := ⟨caller, [], v, [], 0, []⟩
  have hp : hub.pipeline? S = some p := hl.pipeline?
  have honly : hub.pipelines = [(S, p)] := hl.only
  rw [Hub.publish]
  cases hroom : p.buffer.hasRoom with
  | true =>
    obtain ⟨p', hstore, -, hunread, hshell⟩ := hl.settled.store hroom v
    obtain ⟨-, -, hcl, hwait, hrec⟩ := Pipeline.shell_eq_iff.mp hshell
    rw [offer_of_room (q := w) hp hopen hroom hstore, setPipeline_only honly] at hpublish
    rw [hpublish] at hsound ⊢
    refine ⟨p', hl.change hsound rfl rfl rfl (hcl.trans hl.closed) fun x hx => ?_, fun r hr => ?_,
      fun x hx => ?_, ?_⟩
    · exact hl.last x (by rwa [Pipeline.parked, hwait] at hx)
    · rw [show p'.receiver = none from hrec] at hr
      cases hr
    · obtain ⟨r, hr, rfl⟩ := List.mem_map.mp hx
      exact Option.mem_toList.mp hr
    · -- While there is room nobody is parked.
      have hnone : p.waiting.toList = [] := by
        by_contra hne
        have hfull := (hl.settled.waiting_full hne).2
        have hsize : p.buffer.items.size < p.buffer.capacity := by
          simpa [Buffer.hasRoom] using hroom
        omega
      rw [Pipeline.line, Pipeline.line, hunread, hwait, hnone]
      cases hr : p.receiver with
      | none => simp
      | some r =>
        -- Nothing is unread where a receive waits, so the value goes straight to it.
        rw [hl.settled.unread_of_receiver (by rw [hr]; exact Option.some_ne_none r)]
        simp
  | false =>
    rw [offer_of_full_reliable w hp hopen hroom hl.reliable, setPipeline_only honly] at hpublish
    rw [hpublish] at hsound ⊢
    refine ⟨p.park w v, hl.change hsound rfl rfl rfl hl.closed fun x hx => ?_, fun r hr => hr,
      fun x hx => absurd hx List.not_mem_nil, ?_⟩
    · rw [Pipeline.parked, Pipeline.park, Fifo.toList_push, List.map_append] at hx
      rcases List.mem_append.mp hx with hx | hx
      · exact hl.last x hx
      · rw [List.mem_singleton.mp hx]
        exact ⟨rfl, rfl, rfl⟩
    · show _ ++ (p.unread ++ (p.waiting.push (w, v)).toList.map (·.2)) = p.unread ++ _ ++ _
      rw [Fifo.toList_push, List.map_append, List.append_assoc]
      rfl

/-! ## Receiving -/

/-- **A receive that does not wait takes the head of the line.** -/
theorem Lone.tryReceive (hl : Lone S h p) :
    ∃ p', Lone S (h.tryReceive S).hub p' ∧ p'.receiver = p.receiver ∧
      (h.tryReceive S).received = [] ∧ (h.tryReceive S).result.values ++ p'.line = p.line ∧
      (h.tryReceive S).hub.closed = h.closed ∧
      ((h.tryReceive S).result = .empty → p.line = [] ∧ p' = p ∧ h.closed = false) := by
  have hsound := (h.tryReceive_moves S).turns.sound hl.good.sound
  cases hu : p.unread with
  | nil =>
    have hnone : p.waiting.toList = [] := by
      by_contra hne
      obtain ⟨-, hfull⟩ := hl.settled.full_of_waiting hne
      rw [hu, List.length_nil, Pipeline.capacity] at hfull
      have hpos := hl.settled.room_pos
      omega
    have hline : p.line = [] := by
      rw [Pipeline.line, hu, hnone]
      rfl
    rw [tryReceive_of_nil hl.good.sound hl.good.anchored hl.pipeline? hu]
    refine ⟨p, hl, rfl, rfl, ?_, rfl, fun hempty => ⟨hline, rfl, ?_⟩⟩
    · rw [hline]
      cases p.buffer.closed <;> rfl
    · rw [hl.closed] at hempty
      cases hc : h.closed with
      | false => rfl
      | true =>
        rw [hc] at hempty
        cases hempty
  | cons v rest =>
    obtain ⟨p', hread, -, hunread, hwait, hshell⟩ := hl.settled.tryReceive hu
    obtain ⟨-, -, hcl, -, hrec⟩ := Pipeline.shell_eq_iff.mp hshell
    obtain ⟨hpub, hparked⟩ := hl.settled.mem_parked_of_tryReceive hread
    have heq : h.tryReceive S = ⟨{ h with pipelines := [(S, p')] }, .value v, [],
        (p.waiting.toList.head?.map (·.1)).toList.map fun w => (w.caller, true.toNat)⟩ := by
      simp only [Hub.tryReceive, hl.pipeline?, hread]
      rw [resumeAll_last true fun w hw => hl.last w (hpub w hw), setPipeline_only hl.only,
        settle_of_anchored (Or.inl hl.owned)]
      rfl
    rw [heq] at hsound ⊢
    refine ⟨p', hl.change hsound rfl rfl rfl (hcl.trans hl.closed) fun w hw => hl.last w
      (hparked w hw), hrec, rfl, ?_, rfl, fun h => by cases h⟩
    show v :: p'.line = _
    rw [Pipeline.line, Pipeline.line, hunread, hwait, hu]
    cases p.waiting.toList <;> simp

/-- **A receive takes the head of the line, or waits for the next value.** -/
theorem Lone.receive (hl : Lone S h p) (caller : ρ) :
    ∃ p', Lone S (h.receive S caller).hub p' ∧
      (∀ r, p'.receiver = some r → p.receiver = some r ∨ r = caller) ∧
      (h.receive S caller).received = [] ∧
      (h.receive S caller).result.values ++ p'.line = p.line ∧
      (h.receive S caller).hub.closed = h.closed := by
  have hturns : Turns ⟨h, []⟩ (h.tryReceiveLog S) ⟨(h.receive S caller).hub, []⟩ :=
    receive_turns hl.good.sound hl.good.anchored caller
  have hsound := hturns.sound hl.good.sound
  obtain ⟨p', hl', hrec, hreceived, hline, hcl, hempty⟩ := hl.tryReceive
  cases hresult : (h.tryReceive S).result with
  | value v =>
    have heq : h.receive S caller = { h.tryReceive S with result := .returned (some v) } := by
      simp only [Hub.receive, hresult]
    rw [hresult] at hline
    rw [heq]
    exact ⟨p', hl', fun r hr => Or.inl (hrec ▸ hr), hreceived, hline, hcl⟩
  | ended =>
    have heq : h.receive S caller = { h.tryReceive S with result := .returned none } := by
      simp only [Hub.receive, hresult]
    rw [hresult] at hline
    rw [heq]
    exact ⟨p', hl', fun r hr => Or.inl (hrec ▸ hr), hreceived, hline, hcl⟩
  | empty =>
    obtain ⟨hnil, rfl, -⟩ := hempty hresult
    have heq : h.receive S caller = { h.tryReceive S with
        hub := { (h.tryReceive S).hub with pipelines := [(S, { p' with receiver := some caller })] }
        result := .parked } := by
      simp only [Hub.receive, hresult, hl'.pipeline?, setPipeline_only hl'.only]
    rw [heq] at hsound ⊢
    rw [hresult] at hline
    exact ⟨{ p' with receiver := some caller }, hl'.change hsound rfl rfl rfl hl'.closed hl'.last,
      fun r hr => Or.inr (Option.some.inj hr).symm, hreceived, hline, hcl⟩

theorem Lone.tryReceive_result (hl : Lone S h p) {v : α} {rest : List α} (hline : p.line = v :: rest) :
    p.receiver = none ∧ (h.tryReceive S).result = .value v := by
  obtain ⟨unread, hu⟩ := hl.settled.unread_of_line hline
  exact ⟨hl.settled.receiver_none hu, tryReceive_result_of_cons hl.good.sound hl.pipeline? hu⟩

/-! ## Closing -/

/-- **Closing leaves the line as it is**, when nothing is parked. -/
theorem Lone.close (hl : Lone S h p) (hidle : h.parkedPublications = []) :
    ∃ p', Lone S h.close.hub p' ∧ p'.receiver = none ∧
      (∀ x ∈ h.close.received, p.receiver = some x.1 ∧ x.2 = none) ∧ p'.line = p.line := by
  have hsound := h.close_moves.turns.sound hl.good.sound
  cases hc : h.closed with
  | true =>
    rw [close_of_closed hc]
    exact ⟨p, hl, (hl.settled.idle_of_closed (hl.closed.trans hc)).2,
      fun x hx => absurd hx List.not_mem_nil, rfl⟩
  | false =>
    have hparked : p.parked = [] := by
      have hall := hidle
      rw [parkedPublications, hl.only] at hall
      simpa using hall
    have hretire : retireAll h.pipelines = ([(S, p.retired)], p.receiver.toList.map (·, none), []) := by
      rw [hl.good.sound.retireAll_eq, hidle, hl.only]
      simp
    have hclose : h.close = ⟨{ h with pipelines := [(S, p.retired)], closed := true }, (),
        p.receiver.toList.map (·, none), []⟩ := by
      rw [Hub.close, hc, if_neg Bool.false_ne_true, hretire]
      rfl
    rw [hclose] at hsound ⊢
    refine ⟨p.retired, hl.change hsound rfl rfl rfl rfl (fun w hw => absurd hw List.not_mem_nil), rfl,
      fun x hx => ?_, ?_⟩
    · obtain ⟨r, hr, rfl⟩ := List.mem_map.mp hx
      exact ⟨Option.mem_toList.mp hr, rfl⟩
    · have hw : p.waiting.toList = [] := List.map_eq_nil_iff.mp hparked
      show p.unread ++ _ = p.unread ++ _
      rw [hw]
      rfl

/-! ## Other handles -/

theorem Lone.others (hl : Lone S h p) (hne : id ≠ S) (caller : ρ) :
    h.tryReceive id = ⟨h, .ended, [], []⟩ ∧ h.receive id caller = ⟨h, .returned none, [], []⟩ ∧
      h.cancel id = ⟨h, (), [], []⟩ ∧ h.abandon id = ⟨h, (), [], []⟩ := by
  have hp := hl.pipeline?_of_ne hne
  have hread : h.tryReceive id = ⟨h, .ended, [], []⟩ := by simp only [Hub.tryReceive, hp]
  have hcancel : h.cancel id = ⟨h, (), [], []⟩ := by simp only [Hub.cancel, hp]
  refine ⟨hread, ?_, hcancel, ?_⟩
  · rw [Hub.receive, hread]
  · have hkept : h.pipelines.filter (·.1 != id) = h.pipelines := by
      rw [hl.only]
      simp [hne.symm]
    rw [Hub.abandon, hcancel]
    show (⟨{ h with pipelines := h.pipelines.filter (·.1 != id) }, (), [], []⟩ : Reply π ρ α Unit) = _
    rw [hkept]

end lone

end Hub

end Switchboard
