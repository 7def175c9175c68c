import Switchboard.Proofs.Hub.Draining
import Switchboard.Proofs.Hub.Waiting

/-!
# Cancelling a subscription

What a cancel leaves of a subscription and does to everybody else, and who is registered with a hub.

**What stays.** The channel and the hand keep what they hold, and since the buffer holds a value
only when these are full, that is the oldest part of what is unread.

**Who goes on.** The publishes parked there go on to their other targets, and from then on the
subscription takes nothing, so none of them counts it. The names given out are counted up from one
and none comes twice, so that a cancel never meets a later subscription.

**Main statement** (`cancel_keeps_handed_over`). The exact effect of a cancel at every moment of
every run, the names of the subscriptions, and their number.
-/

namespace Switchboard

/-- Cancelling keeps the oldest unread values, as many as the channel and the hand can hold. -/
theorem Pipeline.Settled.unread_cancelled_eq_take {π ρ α : Type} {p : Pipeline π ρ α}
    (h : p.Settled) : p.cancelled.unread = p.unread.take (p.room + 1) := by
  have hhand : p.hand.toList.length ≤ 1 := by cases p.hand <;> simp
  have hlength : (p.channel.toList ++ p.hand.toList).length =
      p.channel.size + p.hand.toList.length := by
    rw [List.length_append, Fifo.size_eq_length]
  have hle := h.channel_le
  rw [Pipeline.unread_cancelled, Pipeline.unread]
  by_cases hbuffer : 0 < p.buffer.items.size
  · -- Behind a value in the buffer the hand and the channel are full.
    obtain ⟨v, hv⟩ := Option.ne_none_iff_exists'.mp (h.buffer_full hbuffer)
    have hfull := h.hand_full (h.buffer_full hbuffer)
    refine (List.take_left' ?_).symm
    rw [hlength, hfull, hv]
    rfl
  · have hnil : p.buffer.items.toList = [] := by
      rw [← List.length_eq_zero_iff, ← Fifo.size_eq_length]
      omega
    rw [hnil, List.append_nil, List.take_of_length_le]
    omega

namespace Hub

variable {π ρ α : Type}

/-! ## Subscriptions that are shut -/

section shut

variable {s t : Scene π ρ α} {log : List (Event π ρ α)} {S : SubscriptionId}
  {p : Pipeline (Publication π α) ρ α}

theorem Turn.not_cancelled (h : Turn s log t) (hreg : ¬ s.hub.Registered S) :
    .cancelled S ∉ log := by
  cases h with
  | move h => exact fun hmem => Moves.not_cutIn (.single h) S (Or.inl hmem)
  | @cancel h i p p' received publications hp hopen hcancel =>
    intro hmem
    obtain rfl : S = i := by simpa [answers] using hmem
    exact hreg ⟨p, hp, hopen⟩
  | _ => simp

theorem Turns.shut (h : Turns s log t) (hs : s.hub.Sound) (hp : s.hub.pipeline? S = some p)
    (hshut : p.isOpen = false) (hheld : .abandoned S ∉ log) :
    ∃ p', t.hub.pipeline? S = some p' ∧ p'.isOpen = false ∧
      takenBy S log ++ p'.unread = p.unread := by
  induction h generalizing p with
  | refl _ => exact ⟨p, hp, hshut, rfl⟩
  | @head s m t _ _ hm _ ih =>
    rw [List.mem_append, not_or] at hheld
    rcases hm.outcome hs hp with ⟨-, p₁, hp₁, hc⟩ | ⟨hcut, -⟩
    · obtain ⟨hshut₁, hnone⟩ := hc.shut hshut
      obtain ⟨p', hp', hshut', hrest⟩ := ih (hm.sound hs) hp₁ hshut₁ hheld.2
      refine ⟨p', hp', hshut', ?_⟩
      have hfirst := hc.unread
      rw [acceptedBy, hnone, List.map_nil, List.append_nil] at hfirst
      rw [takenBy_append, List.append_assoc, hrest, hfirst]
    · exact absurd hcut (not_or.mpr ⟨hm.not_cancelled (not_registered_of_shut hp hshut), hheld.1⟩)

end shut

section leaving

variable {r : Run α} {S : SubscriptionId} {p : Pipeline (Publication Nat α) Nat α}

/-- However the holder of a subscription that is shut goes on, what is left comes in order. -/
theorem Run.extend_shut (hg : r.hub.Good) (hp : r.hub.pipeline? S = some p)
    (hshut : p.isOpen = false) {later : List (Step α)} (hheld : ¬ r.LetsGo S later) :
    ∃ log p', (r.extend later).log = r.log ++ log ∧
      (r.extend later).hub.pipeline? S = some p' ∧ p'.isOpen = false ∧
      takenBy S log ++ p'.unread = p.unread := by
  induction later generalizing r p with
  | nil => exact ⟨[], p, (List.append_nil _).symm, hp, hshut, rfl⟩
  | cons s rest ih =>
    rw [letsGo_cons, not_or] at hheld
    have hturns : Turns ⟨r.hub, []⟩ (s.log r.hub r.calls) ⟨(r.next s).hub, []⟩ := s.turns hg
    obtain ⟨p₁, hp₁, hshut₁, hfirst⟩ :=
      hturns.shut hg.sound hp hshut fun hmem => hheld.1 (Step.abandoned_log hmem)
    obtain ⟨log, p', hlog, hp', hshut', hrest⟩ := ih (r := r.next s) (s.good hg) hp₁ hshut₁ hheld.2
    refine ⟨s.log r.hub r.calls ++ log, p', ?_, hp', hshut', ?_⟩
    · rw [Run.extend_cons, hlog, ← List.append_assoc]
      rfl
    · rw [takenBy_append, List.append_assoc, hrest, hfirst]

theorem drain_of_shut {h : Hub Nat Nat α} (hg : h.Good) (hp : h.pipeline? S = some p)
    (hshut : p.isOpen = false) (call : Nat) :
    ((Step.drain S).act h call).result = .drained ⟨p.unread, true⟩ := by
  have hclosed : p.buffer.closed = true := by simpa [Pipeline.isOpen] using hshut
  obtain ⟨hwait, hrec⟩ := (hg.sound.fits_of hp).settled.idle_of_closed hclosed
  have hnobody : p.parked = [] := by
    rw [Pipeline.parked, hwait]
    rfl
  have hline : p.line = p.unread := by
    rw [(hg.sound.fits_of hp).line_eq, hnobody]
    exact List.append_nil _
  obtain ⟨p', hp', -, hdrained⟩ :=
    hg.drain_line hp (hnobody ▸ fun q hq => absurd hq List.not_mem_nil)
  have hfree : h.isWaiting S = false := by
    rw [isWaiting_eq hp, hrec]
    rfl
  have hshut' : p'.buffer.closed = true := by
    have hgone := (h.drain_moves S).turns.not_registered hg.sound
      (hg.sound.named _ (mem_of_pipeline? hp)).2 (not_registered_of_shut hp hshut)
    simpa [Pipeline.isOpen] using not_registered_iff.mp hgone p' hp'
  rw [Step.act, unlessBusy, if_neg (by rw [hfree]; exact Bool.false_ne_true)]
  show Answer.drained (h.drain S).result = _
  rw [hdrained, hline, hshut']

end leaving

/-! ## One cancel -/

section cancel

variable {h : Hub π ρ α} {S : SubscriptionId} {p : Pipeline (Publication π α) ρ α}

/-- What a cancel does to the pipeline of its subscription, before anybody goes on. -/
def cut (h : Hub π ρ α) (S : SubscriptionId) (p : Pipeline (Publication π α) ρ α) :
    Reply π ρ α Unit :=
  ⟨h.setPipeline S p.cancelled, (), p.receiver.toList.map (·, none), []⟩

theorem cancel_of_open (hs : h.Sound) (hp : h.pipeline? S = some p) (hopen : p.isOpen = true) :
    h.cancel S = settle (resumeAll false p.parked (h.cut S p)) ∧
      h.cancelLog S = .cancelled S :: answers S (p.receiver.toList.map (·, none)) ++
        (resumeAllLog false p.parked (h.cut S p).hub ++
          (resumeAll false p.parked (h.cut S p)).hub.settleLog) := by
  have heq := (hs.fits_of hp).settled.cancel_eq
  constructor
  · simp only [cancel, hp, if_pos hopen, heq]
    rfl
  · simp only [cancelLog, hp, if_pos hopen, heq, List.append_assoc]
    rfl

theorem sound_cut (hs : h.Sound) (hp : h.pipeline? S = some p) : (h.cut S p).hub.Sound :=
  hs.setPipeline hp (hs.fits_of hp).cancelled

theorem pipeline?_cut (hp : h.pipeline? S = some p) :
    (h.cut S p).hub.pipeline? S = some p.cancelled :=
  (pipeline?_setPipeline hp _ S).trans (if_pos rfl)

theorem not_registered_cut (hp : h.pipeline? S = some p) : ¬ (h.cut S p).hub.Registered S :=
  not_registered_of_shut (pipeline?_cut hp) rfl

theorem storedIn_cancelLog (hs : h.Sound) (hp : h.pipeline? S = some p) (hopen : p.isOpen = true) :
    storedIn S (h.cancelLog S) = [] := by
  have hmoves := (resumeAll_moves false p.parked (h.cut S p)).trans (settle_moves _)
  have hrest := (Moves.turns hmoves).not_stored_at (sound_cut hs hp)
    (hs.named _ (mem_of_pipeline? hp)).2 (mt (sound_cut hs hp).mem_registered.mp (not_registered_cut hp))
  rw [(cancel_of_open hs hp hopen).2, storedIn_append, hrest, List.append_nil]
  exact storedIn_answers S _

theorem exists_pipeline_cancel (hs : h.Sound) (hp : h.pipeline? S = some p)
    (hopen : p.isOpen = true) : ∃ p', (h.cancel S).hub.pipeline? S = some p' ∧ p'.isOpen = false ∧
      p'.unread = p.unread.take (p.room + 1) := by
  have hfits := hs.fits_of hp
  have hcancel := (cancel_of_open hs hp hopen).1
  have hat : (resumeAll false p.parked (h.cut S p)).hub.pipeline? S = some p.cancelled :=
    (resumeAll_aside false _ (Or.inr (not_registered_cut hp))).trans (pipeline?_cut hp)
  have hsound : (resumeAll false p.parked (h.cut S p)).hub.Sound :=
    (resumeAll_moves false _ _).turns.sound (sound_cut hs hp)
  obtain ⟨p', hp', hline, hparked⟩ := settle_line hsound hat
  rw [← hcancel] at hp'
  have hnobody : p'.parked = [] := List.eq_nil_iff_forall_not_mem.mpr fun q hq =>
    absurd (hparked q hq) List.not_mem_nil
  refine ⟨p', hp', not_registered_iff.mp (cancel_not_registered hs) p' hp', ?_⟩
  have hsound' : (h.cancel S).hub.Sound := (h.cancel_turns S).sound hs
  rw [← hfits.settled.unread_cancelled_eq_take]
  rw [(hsound'.fits_of hp').line_eq, hnobody] at hline
  exact (List.append_nil _).symm.trans (hline.trans (List.append_nil _))

/-- The holder receives nothing in a cancel; a receive that waits returns with nothing. -/
theorem takenBy_cancelLog (hs : h.Sound) (hp : h.pipeline? S = some p) (hopen : p.isOpen = true) :
    takenBy S (h.cancelLog S) = [] := by
  have hmoves : Moves ⟨(h.cut S p).hub, p.parked.map (·.arrived false)⟩ _ _ :=
    (resumeAll_moves false p.parked (h.cut S p)).trans (settle_moves _)
  obtain ⟨hcancel, hlog⟩ := cancel_of_open hs hp hopen
  rw [← hcancel] at hmoves
  obtain ⟨p₁, hp₁, -, hrest⟩ := hmoves.turns.shut (sound_cut hs hp) (pipeline?_cut hp) rfl
    fun hmem => hmoves.not_cutIn S (Or.inr hmem)
  obtain ⟨p', hp', -, hunread⟩ := exists_pipeline_cancel hs hp hopen
  obtain rfl : p₁ = p' := Option.some.inj (hp₁.symm.trans hp')
  have hsame : p₁.unread = p.cancelled.unread :=
    hunread.trans (hs.fits_of hp).settled.unread_cancelled_eq_take.symm
  rw [hsame, List.append_left_eq_self] at hrest
  rw [hlog, takenBy_append, hrest, List.append_nil]
  exact takenBy_answers_none S _

end cancel

/-! ## Names and handles -/

section handles

variable {h : Hub Nat Nat α} {call : Nat} {r : Run α} {s : Step α} {i : SubscriptionId}

/-- The handle that a step obtains on an open hub. -/
def Step.obtained (h : Hub Nat Nat α) (call : Nat) (s : Step α) : Option SubscriptionId :=
  match s, (s.act h call).result with
  | .subscribe _, .subscribed S => if h.closed then none else some S
  | _, _ => none

/-- The handle that a step cancels, or lets go of unless a receive waits on it. -/
def Step.ended (h : Hub Nat Nat α) (call : Nat) (s : Step α) : Option SubscriptionId :=
  match s, (s.act h call).result with
  | .cancel S, _ => some S
  | .abandon S, .done => some S
  | _, _ => none

/-- The handles obtained on an open hub in the course of some steps, in order. -/
def Run.names : Run α → List (Step α) → List SubscriptionId
  | _, [] => []
  | r, s :: rest => (s.obtained r.hub r.calls).toList ++ names (r.next s) rest

/-- The handles obtained on an open hub in the course of some steps, behind those in `ids`, less
those cancelled or let go of. -/
def Run.handles : Run α → (ids : List SubscriptionId) → List (Step α) → List SubscriptionId
  | _, ids, [] => ids
  | r, ids, s :: rest =>
    handles (r.next s)
      (ids.filter (some · != s.ended r.hub r.calls) ++ (s.obtained r.hub r.calls).toList) rest

theorem Step.obtained_iff : s.obtained h call = some i ↔
    h.closed = false ∧ ∃ n, s = .subscribe n ∧ (s.act h call).result = .subscribed i := by
  cases s with
  | subscribe n =>
    simp only [obtained, subscribe.injEq, exists_eq_left']
    generalize (act h call (subscribe n)).result = answer
    cases answer with
    | subscribed S => cases h.closed <;> simp
    | _ => simp
  | _ => simp [obtained]

theorem Step.ended_iff : s.ended h call = some i ↔
    s = .cancel i ∨ s = .abandon i ∧ h.isWaiting i = false := by
  cases s with
  | cancel S => simp [ended]
  | abandon S =>
    simp only [ended, act, unlessBusy]
    cases hw : h.isWaiting S
    · simp only [Reply.map, Bool.false_eq_true, if_false]
      constructor
      · rintro ⟨⟩
        exact Or.inr ⟨rfl, hw⟩
      · rintro (hc | ⟨ha, -⟩)
        · cases hc
        · cases ha
          rfl
    · simp only [if_true, reduceCtorEq, false_or, false_iff, not_and, abandon.injEq]
      rintro rfl
      rw [hw]
      exact Bool.noConfusion
  | _ => simp [ended]

theorem Run.exists_names (r : Run α) (s : Step α) :
    ∃ k, (s.obtained r.hub r.calls).toList = List.range' (r.hub.lastId + 1) k ∧
      (r.next s).hub.lastId = r.hub.lastId + k := by
  by_cases hs : ∃ n, s = .subscribe n
  · obtain ⟨n, rfl⟩ := hs
    by_cases ho : r.hub.owned = true
    · cases hc : r.hub.closed with
      | true =>
        exact ⟨0, by simp [Step.obtained, Step.act, byOwner, ho, Hub.subscribe, hc],
          by simp [Run.next, Step.act, byOwner, ho, Hub.subscribe, hc]⟩
      | false =>
        exact ⟨1, by simp [Step.obtained, Step.act, byOwner, ho, Hub.subscribe, hc, register],
          by simp [Run.next, Step.act, byOwner, ho, Hub.subscribe, hc, register]⟩
    · exact ⟨0, by simp [Step.obtained, Step.act, byOwner, ho],
        by simp [Run.next, Step.act, byOwner, ho]⟩
  · have hnone : s.obtained r.hub r.calls = none := by
      refine Option.eq_none_iff_forall_not_mem.mpr fun i hi => hs ?_
      obtain ⟨-, n, hn, -⟩ := Step.obtained_iff.mp hi
      exact ⟨n, hn⟩
    rw [hnone]
    exact ⟨0, rfl, Step.lastId_of_ne fun n hn => hs ⟨n, hn⟩⟩

/-- **The names count up.** -/
theorem Run.names_eq (r : Run α) (steps : List (Step α)) :
    r.names steps = List.range' (r.hub.lastId + 1) (r.names steps).length := by
  induction steps generalizing r with
  | nil => rfl
  | cons s rest ih =>
    obtain ⟨k, hfirst, hlast⟩ := r.exists_names s
    have hrest := ih (r.next s)
    rw [hlast, Nat.add_right_comm] at hrest
    rw [names, hfirst, List.length_append, List.length_range', ← List.range'_append_1, ← hrest]

theorem Run.lastId_extend (r : Run α) (steps : List (Step α)) :
    (r.extend steps).hub.lastId = r.hub.lastId + (r.names steps).length := by
  induction steps generalizing r with
  | nil => rfl
  | cons s rest ih =>
    obtain ⟨k, hfirst, hlast⟩ := r.exists_names s
    rw [extend_cons, ih, hlast, names, hfirst, List.length_append, List.length_range',
      Nat.add_assoc]

theorem Run.mem_registered_next (hg : r.hub.Good) (hopen : (r.next s).hub.closed = false) :
    i ∈ (r.next s).hub.registered ↔
      i ∈ r.hub.registered ∧ s.ended r.hub r.calls ≠ some i ∨ s.obtained r.hub r.calls = some i := by
  have hg' : (r.next s).hub.Good := s.good hg
  have hturns : Turns ⟨r.hub, []⟩ _ ⟨(r.next s).hub, []⟩ := s.turns hg
  have hopen₀ : r.hub.closed = false := by
    by_contra hc
    exact absurd (hopen.symm.trans (hturns.closed (by simpa using hc))) Bool.noConfusion
  by_cases hreg : i ∈ r.hub.registered
  · have hnew : s.obtained r.hub r.calls ≠ some i := by
      intro hi
      obtain ⟨hc, n, rfl, hresult⟩ := Step.obtained_iff.mp hi
      obtain ⟨p, hp, -⟩ := hg.sound.mem_registered.mp hreg
      have hle : i ≤ r.hub.lastId := (hg.sound.named _ (mem_of_pipeline? hp)).2
      rw [(Run.pipeline?_of_subscribe hg.sound hc hresult).1] at hle
      exact absurd hle (Nat.not_succ_le_self _)
    have hiff := Run.registered_iff hg hreg [s]
    rw [extend_cons, extend_nil, letsGo_cons, List.mem_singleton] at hiff
    rw [hiff, Ne, Step.ended_iff, eq_comm (a := Step.cancel i)]
    simp only [hreg, hnew, hopen, not_letsGo_nil, true_and, or_false, and_true, not_or]
  · simp only [hreg, false_and, false_or]
    constructor
    · intro hmem
      obtain ⟨p, hp, hopen'⟩ := hg'.sound.mem_registered.mp hmem
      have hlate : ¬ i ≤ r.hub.lastId := fun hle =>
        hturns.not_registered hg.sound hle (mt hg.sound.mem_registered.mpr hreg) ⟨p, hp, hopen'⟩
      obtain ⟨n, rfl, hresult, -⟩ := Run.subscribed_of_new hg hp hlate
      exact Step.obtained_iff.mpr ⟨hopen₀, n, rfl, hresult⟩
    · intro hi
      obtain ⟨hc, n, rfl, hresult⟩ := Step.obtained_iff.mp hi
      exact hg'.sound.mem_registered.mpr
        ⟨_, (Run.pipeline?_of_subscribe hg.sound hc hresult).2, rfl⟩

/-- **The registered subscriptions** of an open hub are those whose handles were obtained and
neither cancelled nor let go of. -/
theorem Run.mem_handles {ids : List SubscriptionId} (hg : r.hub.Good) (hn : ids.Nodup)
    (hold : ∀ i ∈ ids, i ≤ r.hub.lastId)
    (hids : r.hub.closed = false → ∀ i, i ∈ r.hub.registered ↔ i ∈ ids) (steps : List (Step α)) :
    (r.handles ids steps).Nodup ∧ ((r.extend steps).hub.closed = false →
      ∀ i, i ∈ (r.extend steps).hub.registered ↔ i ∈ r.handles ids steps) := by
  induction steps generalizing r ids with
  | nil => exact ⟨hn, hids⟩
  | cons s rest ih =>
    have hg' : (r.next s).hub.Good := s.good hg
    have hturns : Turns ⟨r.hub, []⟩ _ ⟨(r.next s).hub, []⟩ := s.turns hg
    obtain ⟨k, hnew, hlast⟩ := r.exists_names s
    refine ih hg' ?_ (fun i hi => ?_) fun hopen i => ?_
    · -- The new name is larger than all others.
      rw [hnew]
      refine List.nodup_append.mpr ⟨hn.filter _, List.nodup_range', fun i hi j hj => ?_⟩
      exact Nat.ne_of_lt (Nat.lt_of_le_of_lt (hold i (List.mem_filter.mp hi).1)
        (List.mem_range'_1.mp hj).1)
    · rw [hnew, List.mem_append, List.mem_filter, List.mem_range'_1, Nat.add_right_comm] at hi
      rw [hlast]
      rcases hi with hi | hi
      · exact Nat.le_add_right_of_le (hold i hi.1)
      · exact Nat.le_of_lt_succ hi.2
    · have hopen₀ : r.hub.closed = false := by
        by_contra hc
        exact absurd (hopen.symm.trans (hturns.closed (by simpa using hc))) Bool.noConfusion
      rw [mem_registered_next hg hopen, List.mem_append, List.mem_filter, hids hopen₀ i,
        Option.mem_toList]
      simp only [bne_iff_ne, ne_eq, eq_comm (a := some i)]

end handles

/-! ## The exact effect -/

/-- What it does to the run `r` of some steps to cancel the registered subscription `S`, whose
channel holds `room` values; `r'` is the run after the cancel. -/
structure CutOff (label : String) (policy : Policy) (steps : List (Step α)) (S : SubscriptionId)
    (room : Nat) (r r' : Run α) : Prop where
  /-- The oldest unread values stay, as many as the channel and the hand can hold. -/
  unread : r'.hub.unreadOf S = (r.hub.unreadOf S).take (room + 1)
  /-- Draining gives them and the end. -/
  drained : ((Step.drain S).act r'.hub r'.calls).result = .drained ⟨r'.hub.unreadOf S, true⟩
  /-- However the holder receives, they come in order behind what came before, and the end is
  reported behind the last. -/
  received : ∀ later, ¬ r'.LetsGo S later →
    receivedBy label policy (steps ++ .cancel S :: later) S ++ (r'.extend later).hub.unreadOf S =
      receivedBy label policy steps S ++ r'.hub.unreadOf S ∧
    ((r'.extend later).hub.hasEnded S = true ↔ (r'.extend later).hub.unreadOf S = [])
  /-- The subscription is not registered any more, and never again. -/
  unregistered : ∀ later, S ∉ (r'.extend later).hub.registered
  nobody : r'.hub.parkedOn S = []
  /-- A publish parked there returns, or waits at another subscription. -/
  goesOn : ∀ q ∈ r.hub.parkedOn S,
    (∃ m, (q.caller, m) ∈ ((Step.cancel S).act r.hub r.calls).returned) ∨
      ∃ i, i ≠ S ∧ ∃ q' ∈ r'.hub.parkedOn i, q'.caller = q.caller
  /-- What it returns in the end counts `S` no more often than it had taken values before. -/
  counted : ∀ q ∈ r.hub.parkedOn S, ∀ later,
    (acceptors q.caller (r'.extend later).log).count S = (acceptors q.caller r.log).count S ∧
      ∀ m, (q.caller, m) ∈ results label policy (steps ++ .cancel S :: later) →
        m = (acceptors q.caller (r'.extend later).log).length
  /-- The other subscriptions stay registered as long as there is the hub, and lose nothing. -/
  others : ∀ i ∈ r.hub.registered, i ≠ S →
    (r'.hub.closed = false → i ∈ r'.hub.registered) ∧
      ∃ log, r'.log = r.log ++ log ∧
        receivedBy label policy (steps ++ [.cancel S]) i ++ r'.hub.unreadOf i =
          receivedBy label policy steps i ++ r.hub.unreadOf i ++ acceptedBy i log
  /-- The hub goes away only if its owner has let go of it and the last publish in it returns. -/
  gone : r'.hub.closed = true → r'.hub.owned = false ∧ r'.hub.parkedPublications = []

section effect

variable {label : String} {policy : Policy} {steps : List (Step α)} {S : SubscriptionId}
  {p : Pipeline (Publication Nat α) Nat α}

theorem exists_subscribe_room (hp : (run label policy steps).hub.pipeline? S = some p) :
    ∃ before n after, steps = before ++ .subscribe n :: after ∧
      ((Step.subscribe n).act (run label policy before).hub before.length).result =
        .subscribed S ∧
      p.room = min (max n 1) maxChannel := by
  obtain ⟨before, n, after, rfl, hS, -⟩ := exists_subscribe label policy steps hp
  refine ⟨before, n, after, rfl, hS, ?_⟩
  have hgood := run_good label policy before
  have hc : (run label policy before).hub.closed = false := by
    by_contra hc
    obtain rfl := Step.subscribed_of_closed (by simpa using hc) hS
    rw [(run_good label policy _).sound.pipeline?_zero] at hp
    cases hp
  have hnew := (Run.pipeline?_of_subscribe hgood.sound hc hS).2
  have hgood' : ((run label policy before).next (.subscribe n)).hub.Good := Step.good hgood _
  obtain ⟨-, log, -, hturns, -⟩ :=
    Run.extend_turns (r := (run label policy before).next (.subscribe n)) hgood' after
  rw [run_append] at hp
  exact (hturns.sizes hgood'.sound hnew hp).1

theorem next_cancel_of_open {r : Run α} (hg : r.hub.Good) (hp : r.hub.pipeline? S = some p)
    (hopen : p.isOpen = true) :
    ∃ p', (r.next (.cancel S)).hub.pipeline? S = some p' ∧ p'.isOpen = false ∧
      p'.unread = p.unread.take (p.room + 1) :=
  exists_pipeline_cancel hg.sound hp hopen

theorem goesOn_of_cancel {r : Run α} (hg : r.hub.Good) {q : Publication Nat α}
    (hq : q ∈ r.hub.parkedOn S) (hnobody : (r.next (.cancel S)).hub.parkedOn S = []) :
    (∃ m, (q.caller, m) ∈ ((Step.cancel S).act r.hub r.calls).returned) ∨
      ∃ i, i ≠ S ∧ ∃ q' ∈ (r.next (.cancel S)).hub.parkedOn i, q'.caller = q.caller := by
  have hg' : (r.next (.cancel S)).hub.Good := Step.good hg _
  have hperm := (r.hub.cancel_turns S).callers_perm hg.sound
  have hmem : q.caller ∈ callers (⟨r.hub, []⟩ : Scene Nat Nat α) :=
    List.mem_map.mpr ⟨q, mem_parkedPublications_of_parkedOn hq, rfl⟩
  rcases List.mem_append.mp (hperm.mem_iff.mp (List.mem_append_left _ hmem)) with hstill | hreturned
  · obtain ⟨q', hq', hcaller⟩ := List.mem_map.mp hstill
    obtain ⟨i, hi⟩ := hg'.sound.mem_parkedPublications.mp hq'
    refine Or.inr ⟨i, ?_, q', hi, hcaller⟩
    rintro rfl
    rw [hnobody] at hi
    cases hi
  · obtain ⟨⟨caller, m⟩, hm, hcaller⟩ := List.mem_map.mp hreturned
    refine Or.inl ⟨m, ?_⟩
    show (q.caller, m) ∈ (r.hub.cancel S).returned
    rw [(r.hub.cancel_reply S).2, ← hcaller]
    exact hm

/-- **A cancel cuts a registered subscription off.** -/
theorem cutOff_of_cancel (hp : (run label policy steps).hub.pipeline? S = some p)
    (hopen : p.isOpen = true) :
    CutOff label policy steps S p.room (run label policy steps)
      ((run label policy steps).next (.cancel S)) := by
  have hg := run_good label policy steps
  set r := run label policy steps
  have hg' : (r.next (.cancel S)).hub.Good := Step.good hg _
  have hturns : Turns ⟨r.hub, []⟩ (r.hub.cancelLog S) ⟨(r.next (.cancel S)).hub, []⟩ :=
    r.hub.cancel_turns S
  have hnext : ∀ later, (r.next (.cancel S)).extend later =
      run label policy (steps ++ .cancel S :: later) :=
    fun later => (run_append label policy steps (.cancel S :: later)).symm
  -- From here on the pipeline is shut: it gives out what it has kept and takes nothing.
  obtain ⟨p', hp', hshut, hunread⟩ := next_cancel_of_open hg hp hopen
  have hgone : ¬ (r.next (.cancel S)).hub.Registered S := not_registered_of_shut hp' hshut
  have hlast : S ≤ (r.next (.cancel S)).hub.lastId := (hg'.sound.named _ (mem_of_pipeline? hp')).2
  have hnobody := (hg'.sound.idle_of_not_registered hgone).2.1
  refine ⟨?unread, ?drained, fun later hheld => ?received, fun later => ?unregistered, hnobody,
    fun q hq => goesOn_of_cancel hg hq hnobody, fun q hq later => ?counted, fun i hi hne => ?others,
    fun hc => ?gone⟩
  case unread => rw [unreadOf_some hp', unreadOf_some hp, hunread]
  case drained =>
    rw [unreadOf_some hp']
    exact drain_of_shut hg' hp' hshut _
  case received =>
    obtain ⟨log, p'', hlog, hp'', hshut'', htaken⟩ := Run.extend_shut hg' hp' hshut hheld
    have hfirst : takenBy S (r.next (.cancel S)).log = takenBy S r.log := by
      rw [Run.next, takenBy_append]
      exact (congrArg _ (takenBy_cancelLog hg.sound hp hopen)).trans (List.append_nil _)
    refine ⟨?_, ?_⟩
    · rw [receivedBy_eq, receivedBy_eq, ← hnext, hlog, takenBy_append, hfirst, List.append_assoc,
        unreadOf_some hp'', unreadOf_some hp', htaken]
    · have hclosed : p''.buffer.closed = true := by simpa [Pipeline.isOpen] using hshut''
      rw [(Run.extend_turns hg' later).1.hasEnded_eq hp'', unreadOf_some hp'', hclosed, Bool.true_and,
        List.isEmpty_iff]
  case unregistered =>
    obtain ⟨hgood, log, -, hlater, -⟩ := Run.extend_turns hg' later
    exact mt hgood.sound.mem_registered.mp (hlater.not_registered hg'.sound hlast hgone)
  case counted =>
    obtain ⟨-, log, hlog, hlater, -⟩ := Run.extend_turns hg' later
    have hnone : storedIn S (r.hub.cancelLog S ++ log) = [] := by
      rw [storedIn_append, storedIn_cancelLog hg.sound hp hopen,
        hlater.not_stored_at hg'.sound hlast (mt hg'.sound.mem_registered.mp hgone)]
      rfl
    have hall : ((r.next (.cancel S)).extend later).log = r.log ++ (r.hub.cancelLog S ++ log) := by
      rw [hlog, ← List.append_assoc]
      rfl
    refine ⟨?_, fun m hm => ?_⟩
    · have hzero : (acceptors q.caller (r.hub.cancelLog S ++ log)).count S = 0 := by
        rw [count_acceptors, ← count_storedIn, hnone]
        rfl
      rw [hall, acceptors_append, List.count_append, hzero, Nat.add_zero]
    · rw [hnext]
      exact length_acceptors hm
  case others =>
    obtain ⟨pᵢ, hpᵢ, -⟩ := hg.sound.mem_registered.mp hi
    have hcut : ¬ CutIn i (r.hub.cancelLog S) := by
      obtain ⟨-, habandoned, hcancelled⟩ := cancelLog_spec r.hub S
      rintro (hmem | hmem)
      · exact hne (hcancelled i hmem)
      · exact habandoned i hmem
    obtain ⟨pᵢ', hpᵢ', hkept⟩ := (hturns.account hg.sound hpᵢ).kept hcut
    refine ⟨fun hc => hturns.registered hg.sound hcut hc hi, r.hub.cancelLog S, rfl, ?_⟩
    have hlog : (run label policy (steps ++ [.cancel S])).log = r.log ++ r.hub.cancelLog S :=
      congrArg Run.log (hnext []).symm
    rw [receivedBy_eq, receivedBy_eq, hlog, takenBy_append, List.append_assoc, List.append_assoc,
      unreadOf_some hpᵢ, unreadOf_some hpᵢ', hkept]
  case gone =>
    -- An open pipeline shows that the hub was open before the cancel.
    have hopenhub : r.hub.closed = false := by
      by_contra hc
      rw [Pipeline.isOpen, (hg.sound.fits_of hp).shut (by simpa using hc)] at hopen
      cases hopen
    have hrun : r.next (.cancel S) = run label policy (steps ++ [.cancel S]) :=
      (run_append label policy steps [.cancel S]).symm
    rw [hrun] at hc ⊢
    refine ((run_closed_iff label policy _).mp hc).resolve_left fun hclose => ?_
    have hclosed := (run_closed_iff label policy steps).mpr
      (Or.inl ((closed_before (by simp)).mp hclose))
    exact absurd (hopenhub.symm.trans hclosed) Bool.noConfusion

/-- **A cancel keeps what has been handed over.** At every moment of every run, to cancel a
registered subscription, made with a buffer of `n` values, keeps exactly the oldest unread values, as
many as its channel and the hand hold, to be received in order before the end; the publishes parked
there go on without counting it, and no other subscription is affected (`CutOff`). To cancel one that
is not registered, because it was cancelled before, or its hub was closed or is gone, or its handle
was let go, changes nothing. The handles obtained on an open hub are named 1, 2, 3 and so on, and a
subscription that is not registered any more never is again. The number of subscribers is that of the
handles obtained on the open hub and neither cancelled nor let go of, and zero once it is closed. -/
theorem cancel_keeps_handed_over (label : String) (policy : Policy) (steps : List (Step α)) :
    let r := run label policy steps
    let names := Run.names ⟨.new label policy, 0, []⟩ steps
    (∀ S ∈ r.hub.registered, ∃ before n after, steps = before ++ .subscribe n :: after ∧
      ((Step.subscribe n).act (run label policy before).hub before.length).result = .subscribed S ∧
      CutOff label policy steps S (min (max n 1) 65536) r (r.next (.cancel S)) ∧
      ∀ q ∈ r.hub.parkedOn S, ∀ order v, steps[q.caller]? = some (.publish order v) →
        S ∉ acceptors q.caller r.log) ∧
      (∀ S, S ∉ r.hub.registered →
        (Step.cancel S).act r.hub r.calls = ⟨r.hub, .done, [], []⟩ ∧
          (S ∈ names → ∀ later, S ∉ (r.extend later).hub.registered)) ∧
      names = List.range' 1 names.length ∧
      r.hub.subscriberCount = if r.hub.closed then 0 else
        (Run.handles ⟨.new label policy, 0, []⟩ [] steps).length := by
  intro r names
  have hg : r.hub.Good := run_good label policy steps
  have hnames : names = List.range' 1 names.length := Run.names_eq ⟨.new label policy, 0, []⟩ steps
  refine ⟨fun S hS => ?registered, fun S hS => ⟨?idle, fun hname later => ?never⟩, hnames, ?count⟩
  case registered =>
    obtain ⟨p, hp, hopen⟩ := hg.sound.mem_registered.mp hS
    obtain ⟨before, n, after, hsteps, hresult, hroom⟩ := exists_subscribe_room hp
    refine ⟨before, n, after, hsteps, hresult, ?_, fun q hq order v hk =>
      not_mem_acceptors_of_parked hk hq⟩
    have hcut := cutOff_of_cancel hp hopen
    rwa [hroom] at hcut
  case idle =>
    have hnone : r.hub.cancel S = ⟨r.hub, (), [], []⟩ := by
      cases hp : r.hub.pipeline? S with
      | none => simp only [cancel, hp]
      | some p =>
        exact cancel_of_shut hp (not_registered_iff.mp (mt hg.sound.mem_registered.mpr hS) p hp)
    rw [Step.act, hnone]
    rfl
  case never =>
    obtain ⟨hgood, log, -, hlater, -⟩ := Run.extend_turns hg later
    have hlast : r.hub.lastId = 0 + names.length :=
      Run.lastId_extend ⟨.new label policy, 0, []⟩ steps
    rw [hnames, List.mem_range'_1] at hname
    refine mt hgood.sound.mem_registered.mp (hlater.not_registered hg.sound ?_
      (mt hg.sound.mem_registered.mpr hS))
    rw [hlast]
    exact Nat.le_of_lt_succ (by rw [Nat.zero_add, Nat.succ_eq_one_add]; exact hname.2)
  case count =>
    rw [subscriberCount]
    cases hc : r.hub.closed with
    | true =>
      rw [hg.sound.registered_of_closed hc]
      rfl
    | false =>
      have hnew : (⟨.new label policy, 0, []⟩ : Run α).hub.Good :=
        ⟨sound_new label policy, Or.inl rfl⟩
      obtain ⟨hnodup, hmem⟩ := Run.mem_handles hnew List.nodup_nil
        (fun i hi => absurd hi List.not_mem_nil) (fun _ i => Iff.rfl) steps
      have hreg : r.hub.registered.Nodup := hg.sound.nodup.sublist (List.filter_sublist.map _)
      exact ((List.perm_ext_iff_of_nodup hreg hnodup).mpr (hmem hc)).length_eq

/-- Three values fill a subscription with a buffer of one, and a fourth publish waits there. The
cancel keeps the two that have been handed over, and the publish counts the other subscription. -/
theorem cancel_keeps_handed_over_full :
    let steps : List (Step Nat) := [.subscribe 1, .subscribe 2, .publish [] 7, .publish [] 8,
      .publish [] 9, .publish [] 10]
    let r := run "hub" .reliable steps
    let r' := run "hub" .reliable (steps ++ [.cancel 1])
    r.hub.unreadOf 1 = [7, 8, 9] ∧
      ((Step.drain 1).act r'.hub r'.calls).result = .drained ⟨[7, 8], true⟩ ∧
      ((Step.cancel 1).act r.hub r.calls).returned = [(5, 1)] ∧ 2 ∈ r'.hub.registered ∧
      (Step.cancel 1).act r'.hub r'.calls = ⟨r'.hub, .done, [], []⟩ := by
  intro steps r r'
  obtain ⟨_, _, _, -, -, hcut, -⟩ :=
    (cancel_keeps_handed_over "hub" .reliable steps).1 1 (by decide)
  have hnext : (run "hub" .reliable steps).next (.cancel 1) = r' :=
    (run_append "hub" .reliable steps [.cancel 1]).symm
  rw [hnext] at hcut
  have hunread : r'.hub.unreadOf 1 = [7, 8] := by decide +kernel
  have hdrained := hcut.drained
  rw [hunread] at hdrained
  have hgone := hcut.unregistered []
  rw [Run.extend_nil] at hgone
  obtain ⟨-, hidle, -⟩ := cancel_keeps_handed_over "hub" .reliable (steps ++ [.cancel 1])
  have hother := (hcut.others 2 (by decide) (by decide)).1 (by decide +kernel)
  exact ⟨by decide +kernel, hdrained, by decide +kernel, hother, (hidle 1 hgone).1⟩

end effect

end Hub

end Switchboard
