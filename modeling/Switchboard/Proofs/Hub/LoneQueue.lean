import Switchboard.Proofs.Hub.Delivery
import Switchboard.Proofs.Hub.Lossy
import Switchboard.Proofs.Pipeline.Mirror

/-!
# A subscription of a lossy hub is one queue

To its holder a subscription of a lossy hub is a single bounded queue. A publish is a push that does
not wait, a receive is a pop, and shutting the hub retires the queue. The queue is fed by the cues
of the subscription alone, so it makes no difference what else goes on in the hub.

**Main statement** (`lossy_subscription_is_queue`). At every step the subscription and the queue
take the same values, answer alike, release the same receives and have ended or not; and two runs
with the same cues show their subscribers the same.
-/

namespace Switchboard.Hub

variable {π ρ σ α β : Type}

/-! ## What is seen at a subscription -/

/-- What is seen at a subscription in one step: the values that its buffer took, what a receive of
its holder came to, the waiting receives that returned, and whether the handle reports the end. -/
structure Sight (ρ α : Type) where
  accepted : List α
  answer : Option (Answer α)
  released : List (ρ × Option α)
  ended : Bool
deriving DecidableEq, Repr

/-- Name the receives in another way. -/
def Sight.rename (name : ρ → σ) (x : Sight ρ α) : Sight σ α :=
  ⟨x.accepted, x.answer, x.released.map fun r => (name r.1, r.2), x.ended⟩

/-- Whether a receive on a handle reports the end. -/
def hasEnded (h : Hub π ρ α) (id : SubscriptionId) : Bool :=
  match (h.tryReceive id).result with
  | .ended => true
  | .value _ | .empty => false

theorem Good.hasEnded_eq {h : Hub π ρ α} {S : SubscriptionId}
    {p : Pipeline (Publication π α) ρ α} (hg : h.Good) (hp : h.pipeline? S = some p) :
    h.hasEnded S = (p.buffer.closed && p.unread.isEmpty) := by
  rw [hasEnded]
  cases hu : p.unread with
  | nil =>
    rw [tryReceive_of_nil hg.sound hg.anchored hp hu]
    cases p.buffer.closed <;> rfl
  | cons v rest =>
    rw [tryReceive_result_of_cons hg.sound hp hu]
    simp

/-- What is seen at `S` in a step. -/
def Step.sight (S : SubscriptionId) (h : Hub Nat Nat α) (call : Nat) (s : Step α) :
    Sight Nat α where
  accepted := acceptedBy S (s.log h call)
  answer := s.answerTo S h call
  released := answersIn (logAt S (s.log h call))
  ended := (s.act h call).hub.hasEnded S

/-- What is seen at `S` in each of some steps. -/
def Run.sights (S : SubscriptionId) : Run α → List (Step α) → List (Sight Nat α)
  | _, [] => []
  | r, s :: rest => s.sight S r.hub r.calls :: sights S (r.next s) rest

/-! ## What is seen at a queue -/

/-- The pops among the calls that returned. -/
def poppedIn (released : List (Release π ρ α)) : List (ρ × Option α) :=
  released.filterMap fun
    | .popped caller v => some (caller, v)
    | .pushed _ _ => none

@[simp] theorem poppedIn_append (released released' : List (Release π ρ α)) :
    poppedIn (released ++ released') = poppedIn released ++ poppedIn released' :=
  List.filterMap_append

theorem poppedIn_popped {σ : Type} (name : σ → ρ) (value : σ → Option α) (calls : List σ) :
    poppedIn (calls.map fun c => (.popped (name c) (value c) : Release π ρ α)) =
      calls.map fun c => (name c, value c) := by
  rw [poppedIn, List.filterMap_map, ← List.filterMap_eq_map]
  rfl

/-- What is seen at a queue in an operation. -/
def seen (reply : Queue.Reply Unit ρ α β) (accepted : List α) (answer : Option (Answer α)) :
    Queue Unit ρ α × Sight ρ α :=
  (reply.queue,
    ⟨accepted, answer, poppedIn reply.released, reply.queue.isClosed && reply.queue.isEmpty⟩)

/-- Take values without waiting until none is left. -/
def takeAll : (fuel : Nat) → Queue Unit ρ α → List α × Queue Unit ρ α
  | 0, q => ([], q)
  | fuel + 1, q =>
    match q.tryPop with
    | ⟨q', some v, _⟩ => (v :: (takeAll fuel q').1, (takeAll fuel q').2)
    | ⟨q', none, _⟩ => ([], q')

/-- A cue as an operation on a queue. While a pop waits, its owner does nothing else. -/
def Cue.act (q : Queue Unit ρ α) (caller : ρ) (c : Cue α) : Queue Unit ρ α × Sight ρ α :=
  if c.reads && !q.poppers.isEmpty then seen ⟨q, (), []⟩ [] (some .busy)
  else
    match c with
    | publish v =>
      let reply := q.tryPush v
      let accepted := match reply.result with
        | .ok _ => [v]
        | .error _ => []
      seen reply accepted none
    | receive => seen (q.pop caller) [] (some (.received (q.pop caller).result))
    | tryReceive =>
      let reception := match q.tryPop.result with
        | some v => .value v
        | none => if q.isClosed then .ended else .empty
      seen q.tryPop [] (some (.tried reception))
    | drain =>
      let (values, q') := takeAll q.size q
      seen ⟨q', (), []⟩ [] (some (.drained ⟨values, q'.isClosed⟩))
    | shut => seen q.retire [] none

/-- The same where there need not be a cue; without one nothing happens. -/
def notice (q : Queue Unit ρ α) (caller : ρ) : Option (Cue α) → Queue Unit ρ α × Sight ρ α
  | none => seen ⟨q, (), []⟩ [] none
  | some c => c.act q caller

/-- What is seen at a queue step by step. The receive of a step is named after the step. -/
def noticed (name : Nat → ρ) :
    Queue Unit ρ α → (call : Nat) → List (Option (Cue α)) → List (Sight ρ α)
  | _, _, [] => []
  | q, call, c :: rest =>
    (notice q (name call) c).2 :: noticed name (notice q (name call) c).1 (call + 1) rest

/-! ## The queue that mirrors a subscription -/

section mirror

variable {name : Nat → ρ} {S : SubscriptionId} {call : Nat}
  {p p' : Pipeline (Publication Nat α) Nat α} {q : Queue Unit ρ α}

/-- The queue of a lossy subscription: nobody waits to push. -/
abbrev Echoes (name : Nat → ρ) (p : Pipeline (Publication Nat α) Nat α) (q : Queue Unit ρ α) :
    Prop :=
  p.Mirrors (fun _ => ()) name q

theorem seen_eq {r : Queue.Reply Unit ρ α β} (hm : Echoes name p r.queue)
    (accepted : List α) (answer : Option (Answer α)) :
    seen r accepted answer =
      (r.queue, ⟨accepted, answer, poppedIn r.released,
        p.buffer.closed && p.unread.isEmpty⟩) := by
  rw [seen, Queue.isClosed, hm.closed, hm.isEmpty]

theorem act_of_idle (hm : Echoes name p q) (hr : p.receiver = none) (c : Cue α) :
    (c.reads && !q.poppers.isEmpty) = false := by
  rw [hm.isEmpty_poppers, hr]
  simp

theorem notice_receive (hm : Echoes name p q) (hr : p.receiver = none)
    {reply : Queue.Reply Unit ρ α (Outcome (Option α))} (hq : q.pop (name call) = reply) :
    notice q (name call) (some .receive) = seen reply [] (some (.received reply.result)) := by
  rw [notice, Cue.act, act_of_idle hm hr, if_neg Bool.false_ne_true, ← hq]

theorem notice_tryReceive (hm : Echoes name p q) (hr : p.receiver = none)
    {reply : Queue.Reply Unit ρ α (Option α)} (hq : q.tryPop = reply) :
    notice q (name call) (some .tryReceive) =
      seen reply [] (some (.tried (match reply.result with
        | some v => .value v
        | none => if q.isClosed then .ended else .empty))) := by
  rw [notice, Cue.act, act_of_idle hm hr, if_neg Bool.false_ne_true, ← hq]

theorem notice_drain (hm : Echoes name p q) (hr : p.receiver = none) :
    notice q (name call) (some .drain) =
      seen ⟨(takeAll q.size q).2, (), []⟩ []
        (some (.drained ⟨(takeAll q.size q).1, (takeAll q.size q).2.isClosed⟩)) := by
  rw [notice, Cue.act, act_of_idle hm hr, if_neg Bool.false_ne_true]

theorem takeAll_eq (fuel : Nat) {q : Queue Unit ρ α} (hw : q.pushers.toList = [])
    (hf : q.buffer.items.toList.length ≤ fuel) :
    (takeAll fuel q).1 = q.buffer.items.toList ∧
      (takeAll fuel q).2.buffer.items.toList = [] ∧
      (takeAll fuel q).2.buffer.capacity = q.buffer.capacity ∧
      (takeAll fuel q).2.buffer.closed = q.buffer.closed ∧
      (takeAll fuel q).2.pushers = q.pushers ∧ (takeAll fuel q).2.poppers = q.poppers := by
  induction fuel generalizing q with
  | zero =>
    have hnil := List.length_eq_zero_iff.mp (Nat.le_zero.mp hf)
    exact ⟨hnil.symm, hnil, rfl, rfl, rfl, rfl⟩
  | succ fuel ih =>
    cases hi : q.buffer.items.toList with
    | nil =>
      rw [takeAll, Queue.tryPop_of_empty hi]
      exact ⟨rfl, hi, rfl, rfl, rfl, rfl⟩
    | cons v rest =>
      obtain ⟨buffer, hpop, hrest, hcap, hclosed, -⟩ := Buffer.exists_pop?_of_toList hi
      have htry : q.tryPop = ⟨{ q with buffer }, some v, []⟩ :=
        Queue.tryPop_of_value hpop (Queue.letIn_of_nobody (q := { q with buffer }) hw)
      rw [hi, List.length_cons] at hf
      obtain ⟨h₁, h₂, h₃, h₄, h₅, h₆⟩ := ih (q := { q with buffer }) hw
        (by rw [hrest]; exact Nat.le_of_succ_le_succ hf)
      rw [takeAll, htry]
      exact ⟨congrArg (v :: ·) (h₁.trans hrest), h₂, h₃.trans hcap, h₄.trans hclosed, h₅, h₆⟩

/-- A queue from which every value was taken mirrors the pipeline that was drained. -/
theorem Echoes.drained (hm : Echoes name p q) (hidle : p.waiting = ∅) (hempty : p'.unread = [])
    (hshell : p'.shell = p.shell) :
    (takeAll q.size q).1 = p.unread ∧ Echoes name p' (takeAll q.size q).2 := by
  have hsize : q.buffer.items.toList.length ≤ q.size := by
    rw [Queue.size, Buffer.size, Fifo.size_eq_length]
  have hpushers : q.pushers.toList = [] := by
    rw [hm.pushers, hidle]
    rfl
  obtain ⟨hvalues, hrest, hcap, hclosed, hpush, hpop⟩ := takeAll_eq q.size hpushers hsize
  obtain ⟨hroom, hbuffer, hshut, hwait, hrec⟩ := Pipeline.shell_eq_iff.mp hshell
  refine ⟨hvalues.trans hm.items, ?_⟩
  exact { capacity := by rw [hcap, hm.capacity, Pipeline.capacity, Pipeline.capacity, hroom, hbuffer]
          items := by rw [hrest, hempty]
          closed := by rw [hclosed, hm.closed, hshut]
          pushers := by rw [hpush, hm.pushers, hwait]
          poppers := by rw [hpop, hm.poppers, hrec] }

theorem Offered.mirror {v : α} {log : List (Event Nat Nat α)}
    (hf : Offered S call v p log p') (hs : p.Settled) (hm : Echoes name p q) (caller : ρ) :
    ∃ q', (Cue.publish v).act q caller = (q', ⟨acceptedBy S log, none,
        (answersIn log).map fun r => (name r.1, r.2), p'.buffer.closed && p'.unread.isEmpty⟩) ∧
      Echoes name p' q' := by
  cases hf with
  | @taken p' received hopen hroom hstore =>
    obtain ⟨q', hserve, hm'⟩ := hm.store hs hroom hstore
    have hclosed : q.isClosed = false := by
      rw [Queue.isClosed, hm.closed]
      simpa [Pipeline.isOpen] using hopen
    have hpush : q.tryPush v = ⟨q', .ok (), received.map fun r => .popped (name r.1) r.2⟩ :=
      Queue.tryPush_of_room hclosed ((hm.hasRoom hs).trans hroom) hserve
    have hlog : acceptedBy S (.stored S call v :: answers S received) = [v] := by
      simp [acceptedBy]
    have hans : answersIn (.stored S call v :: answers S received) = received :=
      answersIn_answers S received
    refine ⟨q', ?_, hm'⟩
    rw [hlog, hans, ← poppedIn_popped (π := Unit), Cue.act]
    simp only [Cue.reads, Bool.false_and, Bool.false_eq_true, if_false, hpush]
    exact seen_eq hm' _ _
  | refused hfull =>
    obtain ⟨refused, hpush⟩ : ∃ refused, q.tryPush v = ⟨q, .error refused, []⟩ := by
      cases hc : q.isClosed with
      | true => exact ⟨_, Queue.tryPush_of_shut hc⟩
      | false =>
        have hopen : p.isOpen = true := by
          rw [Pipeline.isOpen, ← hm.closed, show q.buffer.closed = false from hc]
          rfl
        exact ⟨_, Queue.tryPush_of_full hc ((hm.hasRoom hs).trans (hfull hopen))⟩
    refine ⟨q, ?_, hm⟩
    rw [Cue.act]
    simp only [Cue.reads, Bool.false_and, Bool.false_eq_true, if_false, hpush]
    exact seen_eq hm [] none

/-- **What a subscription feels, its queue shows.** -/
theorem Felt.mirror {c : Option (Cue α)} {answer : Option (Answer α)}
    {log : List (Event Nat Nat α)} (hf : Felt S call c p answer log p') (hs : p.Settled)
    (hidle : p.waiting = ∅) (hm : Echoes name p q) :
    ∃ q', notice q (name call) c = (q', ⟨acceptedBy S log, answer,
        (answersIn log).map fun r => (name r.1, r.2), p'.buffer.closed && p'.unread.isEmpty⟩) ∧
      Echoes name p' q' := by
  cases hf with
  | rest _ => exact ⟨q, seen_eq hm [] none, hm⟩
  | publish hoff => exact hoff.mirror hs hm (name call)
  | @busy _ c hreads hwaits =>
    -- The receive that waits on the subscription is the pop parked on the queue.
    have hbusy : (c.reads && !q.poppers.isEmpty) = true := by
      rw [hm.isEmpty_poppers, hreads, Bool.true_and, Bool.not_eq_true', Option.isNone_eq_false_iff,
        Option.isSome_iff_ne_none]
      exact hwaits
    refine ⟨q, ?_, hm⟩
    rw [notice, Cue.act.eq_def, if_pos hbusy]
    exact seen_eq hm [] _
  | @receive _ _ v rest hr hu hread =>
    obtain ⟨-, buffer, q', hpop, hlet, hm'⟩ := hm.read hs hu hread
    have hq : q.pop (name call) = ⟨q', .returned (some v), []⟩ := Queue.pop_of_value hpop hlet
    refine ⟨q', ?_, hm'⟩
    rw [notice_receive hm hr hq]
    exact seen_eq hm' [] _
  | finish hr hu hc =>
    have hq : q.pop (name call) = ⟨q, .returned none, []⟩ :=
      Queue.pop_of_shut (hm.items.trans hu) (hm.closed.trans hc)
    refine ⟨q, ?_, hm⟩
    rw [notice_receive hm hr hq]
    exact seen_eq hm [] _
  | await hr hu hc =>
    have hq : q.pop (name call) =
        ⟨{ q with poppers := q.poppers.push (name call) }, .parked, []⟩ :=
      Queue.pop_of_open (hm.items.trans hu) (hm.closed.trans hc)
    have hm' := hm.await hr call
    refine ⟨_, ?_, hm'⟩
    rw [notice_receive hm hr hq]
    exact seen_eq (r := ⟨_, Outcome.parked, []⟩) hm' [] _
  | @glance _ _ v rest hr hu hread =>
    obtain ⟨-, buffer, q', hpop, hlet, hm'⟩ := hm.read hs hu hread
    have hq : q.tryPop = ⟨q', some v, []⟩ := Queue.tryPop_of_value hpop hlet
    refine ⟨q', ?_, hm'⟩
    rw [notice_tryReceive hm hr hq]
    exact seen_eq hm' [] _
  | glanceNone hr hu =>
    have hq : q.tryPop = ⟨q, none, []⟩ := Queue.tryPop_of_empty (hm.items.trans hu)
    refine ⟨q, ?_, hm⟩
    rw [notice_tryReceive hm hr hq]
    simp only [Queue.isClosed, hm.closed]
    exact seen_eq hm [] _
  | drain hr hempty hshell =>
    obtain ⟨hvalues, hm'⟩ := hm.drained hidle hempty hshell
    obtain ⟨-, -, hshut, -, -⟩ := Pipeline.shell_eq_iff.mp hshell
    have hend : (takeAll q.size q).2.isClosed = p.buffer.closed := hm'.closed.trans hshut
    have hnone : acceptedBy S (p.unread.map (.received S) : List (Event Nat Nat α)) = [] ∧
        answersIn (p.unread.map (.received S) : List (Event Nat Nat α)) = [] := by
      simp [acceptedBy, storedIn, answersIn, List.filterMap_map]
    refine ⟨_, ?_, hm'⟩
    rw [notice_drain hm hr, hnone.1, hnone.2, hvalues, hend]
    exact seen_eq (r := ⟨_, (), []⟩) hm' [] _
  | shut _ =>
    obtain ⟨hreleased, hm'⟩ := hm.retire hs
    rw [hidle] at hreleased
    have hnone : acceptedBy S (answers S (p.receiver.toList.map (·, none)) :
        List (Event Nat Nat α)) = [] := congrArg _ (storedIn_answers S _)
    have hpops : poppedIn q.retire.released =
        (p.receiver.toList.map (·, none)).map fun r => (name r.1, r.2) := by
      rw [hreleased, ← poppedIn_popped (π := Unit), List.map_map]
      rfl
    refine ⟨_, ?_, hm'⟩
    rw [notice, Cue.act, hnone, answersIn_answers, ← hpops]
    exact seen_eq hm' [] _

end mirror

/-! ## Runs -/

section runs

variable {name : Nat → ρ} {S : SubscriptionId} {p : Pipeline (Publication Nat α) Nat α}
  {q : Queue Unit ρ α}

/-- The steps in which a subscription is neither cut off nor meets several values at once. -/
def Step.Plain (S : SubscriptionId) (s : Step α) : Prop :=
  s ≠ .cancel S ∧ s ≠ .abandon S ∧ ∀ order vs, s ≠ .burst order vs

/-- **A step** shows the holder of `S` what it shows the owner of the queue. -/
theorem Step.mirror {h : Hub Nat Nat α} (call : Nat) (hl : h.Lossy)
    (hp : h.pipeline? S = some p) (hm : Echoes name p q) {s : Step α} (hplain : s.Plain S) :
    ∃ p' q', (s.act h call).hub.pipeline? S = some p' ∧ Echoes name p' q' ∧
      notice q (name call) (s.cue S) = (q', (s.sight S h call).rename name) := by
  obtain ⟨p', hp', hfelt⟩ := Step.felt call hl hp hplain.1 hplain.2.1 hplain.2.2
  have hfits := hl.sound.fits_of hp
  obtain ⟨q', hnotice, hm'⟩ := hfelt.mirror hfits.settled (hfits.lossy hl.lossy) hm
  refine ⟨p', q', hp', hm', ?_⟩
  rw [hnotice, Sight.rename, Step.sight, (Step.lossy hl s).toGood.hasEnded_eq hp', acceptedBy,
    storedIn_logAt]
  rfl

/-- **A run** shows the holder of `S` what it shows the owner of the queue. -/
theorem Run.sights_mirror {r : Run α} (hl : r.hub.Lossy) (hp : r.hub.pipeline? S = some p)
    (hm : Echoes name p q) {steps : List (Step α)} (hplain : ∀ s ∈ steps, s.Plain S) :
    (r.sights S steps).map (·.rename name) =
      noticed name q r.calls (steps.map (·.cue S)) := by
  induction steps generalizing r p q with
  | nil => rfl
  | cons s rest ih =>
    obtain ⟨p', q', hp', hm', hnotice⟩ :=
      Step.mirror r.calls hl hp hm (hplain s (List.mem_cons_self ..))
    have hrest := ih (r := r.next s) (Step.lossy hl s) hp' hm'
      fun t ht => hplain t (List.mem_cons_of_mem _ ht)
    rw [Run.sights, List.map_cons, List.map_cons, noticed, hnotice, hrest]
    rfl

/-- What is seen at a queue to which nothing but cues comes, each with its cue. -/
def shown : Queue Unit Unit α → List (Cue α) → List (Cue α × Sight Unit α)
  | _, [] => []
  | q, c :: rest => (c, (c.act q ()).2) :: shown (c.act q ()).1 rest

/-- What the steps that concern `S` show its holder, whatever their numbers. -/
def Run.shown (S : SubscriptionId) (r : Run α) (steps : List (Step α)) :
    List (Cue α × Sight Unit α) :=
  ((steps.map (·.cue S)).zip ((r.sights S steps).map (·.rename fun _ => ()))).filterMap
    fun e => e.1.map (·, e.2)

/-- Steps without a cue can be left out. -/
theorem shown_filterMap (q : Queue Unit Unit α) (call : Nat) (cues : List (Option (Cue α))) :
    ((cues.zip (noticed (fun _ => ()) q call cues)).filterMap fun e => e.1.map (·, e.2)) =
      shown q (cues.filterMap id) := by
  induction cues generalizing q call with
  | nil => rfl
  | cons c rest ih =>
    rw [noticed, List.zip_cons_cons]
    cases c with
    | none => exact ih q (call + 1)
    | some c => exact congrArg ((c, (c.act q ()).2) :: ·) (ih (c.act q ()).1 (call + 1))

/-- A subscription `S` with a buffer of `n` values is made on an open lossy hub by the step after
`before` and held through `after`, in which no call publishes several values. -/
structure Held (label : String) (before after : List (Step α)) (n : Nat) (S : SubscriptionId) :
    Prop where
  opened : (run label .lossy before).hub.closed = false
  subscribed : ((Step.subscribe n).act (run label .lossy before).hub before.length).result =
    .subscribed S
  uncancelled : .cancel S ∉ after
  unabandoned : .abandon S ∉ after
  single : ∀ order vs, .burst order vs ∉ after

theorem Held.plain {label : String} {before after : List (Step α)} {n : Nat}
    (h : Held label before after n S) : ∀ s ∈ after, s.Plain S := by
  intro s hs
  refine ⟨?_, ?_, ?_⟩
  · rintro rfl
    exact h.uncancelled hs
  · rintro rfl
    exact h.unabandoned hs
  · rintro order vs rfl
    exact h.single order vs hs

theorem run_lossy (label : String) (steps : List (Step α)) : (run label .lossy steps).hub.Lossy :=
  ⟨run_good label .lossy steps, (run_turns label .lossy steps).1.policy⟩

/-- The queue that stands for a subscription with a buffer of `n` values. -/
def queueFor (n : Nat) : Queue Unit ρ α := .new (min (max n 1) maxChannel + 1 + max n 1)

theorem Held.sights_eq {label : String} {before after : List (Step α)} {n : Nat}
    (h : Held label before after n S) (name : Nat → ρ) :
    let r := run label .lossy (before ++ [.subscribe n])
    (r.sights S after).map (·.rename name) =
      noticed name (queueFor n) r.calls (after.map (·.cue S)) := by
  intro r
  have hr : r = (run label .lossy before).next (.subscribe n) := run_append ..
  have hp := (Run.pipeline?_of_subscribe (run_good label .lossy before).sound h.opened
    h.subscribed).2
  rw [← hr] at hp
  exact Run.sights_mirror (run_lossy label _) hp (Pipeline.mirrors_new n) h.plain

theorem Sight.rename_id (x : Sight ρ α) : x.rename id = x := by
  rw [Sight.rename]
  simp

end runs

/-- **A subscription of a lossy hub is one queue.** It is made on an open hub with a buffer of `n`
values and neither cancelled nor abandoned afterwards. What is seen at it in every step (the values
taken, the answers to its holder's receives, those that wait and those released, the end) is seen
at a queue as large as its buffer, its channel and the hand together, into which every value
published is pushed without waiting, and which is retired when the hub shuts. So two such
subscriptions with the same buffer show the same if the same values are published and the same
receives are made, whatever else happens in their hubs. -/
theorem lossy_subscription_is_queue {label : String} {before after : List (Step α)} {n : Nat}
    {S : SubscriptionId} (h : Held label before after n S) :
    let r := run label .lossy (before ++ [.subscribe n])
    r.sights S after =
        noticed id (.new (min (max n 1) 65536 + 1 + max n 1)) r.calls (after.map (·.cue S)) ∧
      ∀ {label' : String} {before' after' : List (Step α)} {S' : SubscriptionId},
        Held label' before' after' n S' →
        after'.filterMap (·.cue S') = after.filterMap (·.cue S) →
        (run label' .lossy (before' ++ [.subscribe n])).shown S' after' = r.shown S after := by
  intro r
  refine ⟨?_, fun h' hcues => ?_⟩
  · have hsame : (r.sights S after).map (·.rename id) = r.sights S after :=
      (List.map_congr_left fun x _ => x.rename_id).trans (List.map_id _)
    rw [← hsame]
    exact h.sights_eq id
  · rw [Run.shown, Run.shown, h.sights_eq, h'.sights_eq, shown_filterMap, shown_filterMap,
      List.filterMap_map, List.filterMap_map]
    exact congrArg (shown (queueFor n)) hcues

/-- A subscriber with a buffer of one misses the fifth value, whether another one reads beside it
and leaves, or there is no other. -/
theorem lossy_subscription_is_queue_beside_another :
    let alone : List (Step Nat) := [.receive 1, .publish [] 0, .publish [] 1, .publish [] 2,
      .publish [] 3, .publish [] 4, .drain 1, .close, .receive 1]
    let beside : List (Step Nat) := [.receive 2, .publish [] 0, .tryReceive 1, .publish [] 1,
      .publish [] 2, .cancel 1, .publish [] 3, .publish [] 4, .drain 2, .close, .receive 2]
    let r := run "hub" .lossy [.subscribe 7, .subscribe 1]
    let r' := run "hub" .lossy [.subscribe 1]
    r'.shown 1 alone = r.shown 2 beside ∧
      (r'.shown 1 alone)[6]?.bind (·.2.answer) = some (.drained ⟨[1, 2, 3], false⟩) := by
  intro alone beside r r'
  have held : Held "hub" [.subscribe 7] beside 1 2 :=
    ⟨rfl, rfl, by decide, by decide, by simp [beside]⟩
  have held' : Held "hub" [] alone 1 1 := ⟨rfl, rfl, by decide, by decide, by simp [alone]⟩
  exact ⟨(lossy_subscription_is_queue held).2 held' (by decide), by decide +kernel⟩

end Switchboard.Hub
