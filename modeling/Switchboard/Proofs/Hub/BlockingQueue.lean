import Switchboard.Proofs.Hub.LoneQueue

/-!
# The only subscription of a reliable hub is one blocking queue

As long as a reliable hub has one subscription, publishers and holder deal with a single bounded
queue. A publish is a push that waits at a full queue, a receive is a pop, and closing the hub
retires the queue. One receive may move a value in every stage and let in the publish that has
waited longest; the queue does all of that in one pop.

**Main statement** (`only_subscription_is_queue`). Every call comes to the same on both sides, the
same calls wait, and those that waited return in the same order with the same results.
-/

namespace Switchboard

/-- A publish that has nowhere else to go and nothing else to publish, and whose value nobody has
taken yet. -/
def Publication.IsLast {π α : Type} (w : Publication π α) : Prop :=
  w.ahead = [] ∧ w.later = [] ∧ w.accepted = 0

namespace Hub

variable {π ρ α β : Type}

/-! ## What comes of a call -/

/-- What comes of a call: its answer, the waiting publishes and receives that it lets return, each
in order, and whether the subscription has ended afterwards. -/
structure Effect (α : Type) where
  answer : Answer α
  returned : List (Nat × Nat)
  received : List (Nat × Option α)
  ended : Bool
deriving DecidableEq, Repr

/-- What comes of a step of a hub, seen from the subscription `S`. -/
def Step.effect (S : SubscriptionId) (h : Hub Nat Nat α) (call : Nat) (s : Step α) : Effect α where
  answer := (s.act h call).result
  returned := (s.act h call).returned
  received := (s.act h call).received
  ended := (s.act h call).hub.hasEnded S

/-- What comes of each of some steps. -/
def Run.effects (S : SubscriptionId) : Run α → List (Step α) → List (Effect α)
  | _, [] => []
  | r, s :: rest => s.effect S r.hub r.calls :: effects S (r.next s) rest

/-- What the users of a hub with one subscription do. -/
inductive Call (α : Type) where
  /-- Publish a value, visiting the subscriptions in `order` first. -/
  | publish (order : List SubscriptionId) (value : α)
  | receive
  /-- Receive without waiting, as a poll of the handle does too. -/
  | tryReceive
  | close
deriving DecidableEq, Repr

/-- A call as a step of a run in which the subscription is called `S`. -/
def Call.step (S : SubscriptionId) : Call α → Step α
  | publish order v => .publish order v
  | receive => .receive S
  | tryReceive => .tryReceive S
  | close => .close

/-! ## The same at a queue -/

/-- The pushes among the calls that returned, each with the number of queues that took its value. -/
def pushedIn (released : List (Release π ρ α)) : List (π × Nat) :=
  released.filterMap fun
    | .pushed caller accepted => some (caller, accepted.toNat)
    | .popped _ _ => none

@[simp] theorem pushedIn_append (released released' : List (Release π ρ α)) :
    pushedIn (released ++ released') = pushedIn released ++ pushedIn released' :=
  List.filterMap_append

theorem pushedIn_pushed {σ : Type} (name : σ → π) (calls : List σ) (accepted : Bool) :
    pushedIn (calls.map fun c => (.pushed (name c) accepted : Release π ρ α)) =
      calls.map fun c => (name c, accepted.toNat) := by
  rw [pushedIn, List.filterMap_map, ← List.filterMap_eq_map]
  rfl

@[simp] theorem pushedIn_popped {σ : Type} (name : σ → ρ) (value : σ → Option α) (calls : List σ) :
    pushedIn (calls.map fun c => (.popped (name c) (value c) : Release π ρ α)) = [] := by
  rw [pushedIn, List.filterMap_map]
  exact List.filterMap_none ..

@[simp] theorem poppedIn_pushed {σ : Type} (name : σ → π) (calls : List σ) (accepted : Bool) :
    poppedIn (calls.map fun c => (.pushed (name c) accepted : Release π ρ α)) = [] := by
  rw [poppedIn, List.filterMap_map]
  exact List.filterMap_none ..

/-- How many queues a push came into. -/
def countOf : Outcome Bool → Outcome Nat
  | .returned accepted => .returned accepted.toNat
  | .parked => .parked

/-- What a pop without waiting says of a queue. -/
def receptionOf (q : Queue π ρ α) : Option α → Reception α
  | some v => .value v
  | none => if q.isClosed then .ended else .empty

/-- What comes of an operation on a queue. -/
def effectOf (reply : Queue.Reply Nat Nat α β) (answer : Answer α) : Queue Nat Nat α × Effect α :=
  (reply.queue,
    ⟨answer, pushedIn reply.released, poppedIn reply.released,
      reply.queue.isClosed && reply.queue.isEmpty⟩)

/-- A call as an operation on a queue. While a pop waits, its caller makes no other. -/
def Call.act (q : Queue Nat Nat α) (call : Nat) : Call α → Queue Nat Nat α × Effect α
  | publish _ v => effectOf (q.push call v) (.published (countOf (q.push call v).result))
  | receive =>
    if q.poppers.isEmpty then effectOf (q.pop call) (.received (q.pop call).result)
    else effectOf ⟨q, (), []⟩ .busy
  | tryReceive =>
    if q.poppers.isEmpty then effectOf q.tryPop (.tried (receptionOf q q.tryPop.result))
    else effectOf ⟨q, (), []⟩ .busy
  | close => effectOf q.retire .done

/-- What comes of each of some calls on a queue, the first of which has the number `call`. -/
def effectsAt : Queue Nat Nat α → (call : Nat) → List (Call α) → List (Effect α)
  | _, _, [] => []
  | q, call, c :: rest => (c.act q call).2 :: effectsAt (c.act q call).1 (call + 1) rest

/-! ## Publishes on their last way -/

section last

variable {h : Hub π ρ α}

/-- Once let in or turned away, such a publish returns. -/
theorem resume_last {w : Publication π α} (hw : w.IsLast) (stored : Bool) :
    h.resume w stored = ⟨h, stored.toNat, false, []⟩ := by
  obtain ⟨hahead, hlater, haccepted⟩ := hw
  simp only [resume, hahead, hlater, haccepted, visit, publishEach]
  cases stored <;> rfl

theorem resumeAll_last (stored : Bool) {ws : List (Publication π α)}
    (hws : ∀ w ∈ ws, w.IsLast) (reply : Reply π ρ α β) :
    resumeAll stored ws reply =
      { reply with returned := reply.returned ++ ws.map fun w => (w.caller, stored.toNat) } := by
  induction ws generalizing reply with
  | nil => simp [resumeAll]
  | cons w rest ih =>
    rw [resumeAll, resume_last (hws w (List.mem_cons_self ..)),
      ih fun x hx => hws x (List.mem_cons_of_mem _ hx)]
    simp

end last

/-! ## A hub with one subscription -/

theorem publishAll_one {h : Hub π ρ α} {S : SubscriptionId} {order : List SubscriptionId}
    (hc : h.closed = false) (ht : h.targets order = [S]) (caller : π) (v : α) :
    h.publishAll caller order [v] =
      match Hub.offer { h with published := h.published + 1 } S ⟨caller, order, v, [], 0, []⟩ with
      | (hub, .stored, received) => ⟨hub, .returned 1, received, []⟩
      | (hub, .refused, _) => ⟨hub, .returned 0, [], []⟩
      | (hub, .parked, _) => ⟨hub, .parked, [], []⟩ := by
  set hub : Hub π ρ α := { h with published := h.published + 1 } with hhub
  have ht' : hub.targets order = [S] := ht
  rw [publishAll, publishEach, hc, if_neg Bool.false_ne_true]
  simp only [← hhub, ht', visit, publishEach]
  rcases hub.offer S ⟨caller, order, v, [], 0, []⟩ with ⟨hub', _ | _ | _, received⟩ <;> rfl

theorem setPipeline_only {h : Hub π ρ α} {S : SubscriptionId}
    {p : Pipeline (Publication π α) ρ α} (honly : h.pipelines = [(S, p)])
    (p' : Pipeline (Publication π α) ρ α) :
    h.setPipeline S p' = { h with pipelines := [(S, p')] } := by
  rw [setPipeline, honly]
  simp

/-- A reliable hub in the hands of its owner has the pipeline `p` of the subscription `S` and no
other, and the queue `q` mirrors it. -/
structure Sole (S : SubscriptionId) (h : Hub Nat Nat α)
    (p : Pipeline (Publication Nat α) Nat α) (q : Queue Nat Nat α) : Prop where
  good : h.Good
  reliable : h.policy = .reliable
  owned : h.owned = true
  only : h.pipelines = [(S, p)]
  closed : p.buffer.closed = h.closed
  last : ∀ w ∈ p.parked, w.IsLast
  mirrors : p.Mirrors (·.caller) id q

/-- A step leaves the hub like the queue, and the same comes of both. -/
def Agrees (S : SubscriptionId) (h : Hub Nat Nat α) (call : Nat) (s : Step α)
    (atQueue : Queue Nat Nat α × Effect α) : Prop :=
  ∃ p', Sole S (s.act h call).hub p' atQueue.1 ∧ s.effect S h call = atQueue.2

section sole

variable {h h' : Hub Nat Nat α} {S : SubscriptionId} {call : Nat} {s : Step α} {v : α}
  {p p' : Pipeline (Publication Nat α) Nat α} {q : Queue Nat Nat α}

theorem Sole.pipeline? (hs : Sole S h p q) : h.pipeline? S = some p := by
  rw [Hub.pipeline?, hs.only]
  simp

theorem Sole.settled (hs : Sole S h p q) : p.Settled :=
  (hs.good.sound.fits_of hs.pipeline?).settled

theorem Sole.isWaiting (hs : Sole S h p q) : h.isWaiting S = !q.poppers.isEmpty := by
  rw [isWaiting_eq hs.pipeline?, hs.mirrors.isEmpty_poppers]
  cases p.receiver <;> rfl

theorem Sole.isClosed (hs : Sole S h p q) : q.isClosed = h.closed :=
  hs.mirrors.closed.trans hs.closed

theorem Sole.isOpen (hs : Sole S h p q) (hc : h.closed = false) : p.isOpen = true := by
  rw [Pipeline.isOpen, hs.closed, hc]
  rfl

theorem Sole.targets (hs : Sole S h p q) (hc : h.closed = false) (order : List SubscriptionId) :
    h.targets order = [S] := by
  have hreg : h.registered = [S] := by
    rw [registered, hs.only]
    simp [Pipeline.isOpen, hs.closed, hc]
  refine List.perm_singleton.mp ?_
  refine (List.perm_ext_iff_of_nodup (nodup_targets hs.good.sound order)
    (List.nodup_singleton S)).mpr fun id => ?_
  rw [mem_targets, hreg]

/-- Where a step and an operation on the queue release the same calls and leave the pipeline and the
queue alike, they agree. -/
theorem Sole.agrees (hs : Sole S h p q) {answer : Answer α} {received : List (Nat × Option α)}
    {returned : List (Nat × Nat)} {reply : Queue.Reply Nat Nat α β}
    (hact : s.act h call = ⟨h', answer, received, returned⟩)
    (hreliable : h'.policy = h.policy) (howned : h'.owned = h.owned)
    (honly : h'.pipelines = [(S, p')]) (hclosed : p'.buffer.closed = h'.closed)
    (hlast : ∀ w ∈ p'.parked, w.IsLast) (hm : p'.Mirrors (·.caller) id reply.queue)
    (hreturned : pushedIn reply.released = returned)
    (hreceived : poppedIn reply.released = received) :
    Agrees S h call s (effectOf reply answer) := by
  have hgood : (s.act h call).hub.Good := s.good hs.good
  rw [hact] at hgood
  have hs' : Sole S h' p' reply.queue :=
    ⟨hgood, hreliable.trans hs.reliable, howned.trans hs.owned, honly, hclosed, hlast, hm⟩
  refine ⟨p', by rw [hact]; exact hs', ?_⟩
  rw [Step.effect, hact, hgood.hasEnded_eq hs'.pipeline?, effectOf, hreturned, hreceived,
    Queue.isClosed, hm.closed, hm.isEmpty]

theorem Sole.agrees_still (hs : Sole S h p q) {answer : Answer α} {result : β}
    (hact : s.act h call = ⟨h, answer, [], []⟩) :
    Agrees S h call s (effectOf ⟨q, result, []⟩ answer) :=
  hs.agrees hact rfl rfl hs.only hs.closed hs.last hs.mirrors rfl rfl

/-! ## Publishing -/

theorem Sole.publish_closed (hs : Sole S h p q) (hc : h.closed = true) (call : Nat)
    (order : List SubscriptionId) (v : α) :
    Agrees S h call (.publish order v) ((Call.publish order v).act q call) := by
  have hact : (Step.publish order v).act h call = ⟨h, .published (.returned 0), [], []⟩ := by
    rw [Step.act, byOwner, if_pos hs.owned, publishAll,
      (publishEach_of_closed (r := ⟨h, 0, false, []⟩) call order [v] hc).1]
    rfl
  rw [Call.act, Queue.push_of_shut (hs.isClosed.trans hc)]
  exact hs.agrees_still hact

theorem Sole.publish_stored (hs : Sole S h p q) (hc : h.closed = false)
    (hroom : p.buffer.hasRoom = true) (call : Nat) (order : List SubscriptionId) (v : α) :
    Agrees S h call (.publish order v) ((Call.publish order v).act q call) := by
  obtain ⟨p', received, hstore⟩ : ∃ p' received, p.store v = (p', received) := ⟨_, _, rfl⟩
  obtain ⟨-, -, -, hshell⟩ := hs.settled.of_store hroom hstore
  obtain ⟨-, -, hcl, hwait, -⟩ := Pipeline.shell_eq_iff.mp hshell
  obtain ⟨q', hserve, hm⟩ := hs.mirrors.store hs.settled hroom hstore
  set hub : Hub Nat Nat α := { h with published := h.published + 1 }
  have hoffer : hub.offer S ⟨call, order, v, [], 0, []⟩ =
      ({ hub with pipelines := [(S, p')] }, .stored, received) := by
    rw [← setPipeline_only (h := hub) hs.only]
    exact offer_of_room hs.pipeline? (hs.isOpen hc) hroom hstore
  have hact : (Step.publish order v).act h call =
      ⟨{ hub with pipelines := [(S, p')] }, .published (.returned 1), received, []⟩ := by
    rw [Step.act, byOwner, if_pos hs.owned, publishAll_one hc (hs.targets hc order), hoffer]
    rfl
  have hpush : q.push call v = ⟨q', .returned true, received.map fun r => .popped r.1 r.2⟩ :=
    Queue.push_of_room (hs.isClosed.trans hc) ((hs.mirrors.hasRoom hs.settled).trans hroom) hserve
  rw [Call.act, hpush]
  refine hs.agrees hact rfl rfl rfl (hcl.trans hs.closed) (fun w hw => hs.last w ?_) hm
    (pushedIn_popped (·.1) (·.2) received) ?_
  · rwa [Pipeline.parked, hwait] at hw
  · exact (poppedIn_popped (·.1) (·.2) received).trans (List.map_id _)

theorem Sole.publish_parked (hs : Sole S h p q) (hc : h.closed = false)
    (hroom : p.buffer.hasRoom = false) (call : Nat) (order : List SubscriptionId) (v : α) :
    Agrees S h call (.publish order v) ((Call.publish order v).act q call) := by
  set hub : Hub Nat Nat α := { h with published := h.published + 1 }
  set w : Publication Nat α := ⟨call, order, v, [], 0, []⟩
  have hoffer : hub.offer S w =
      ({ hub with pipelines := [(S, p.park w v)] }, .parked, []) := by
    rw [← setPipeline_only (h := hub) hs.only]
    exact offer_of_full_reliable w hs.pipeline? (hs.isOpen hc) hroom hs.reliable
  have hact : (Step.publish order v).act h call =
      ⟨{ hub with pipelines := [(S, p.park w v)] }, .published .parked, [], []⟩ := by
    rw [Step.act, byOwner, if_pos hs.owned, publishAll_one hc (hs.targets hc order), hoffer]
    rfl
  have hfull : q.buffer.hasRoom = false := (hs.mirrors.hasRoom hs.settled).trans hroom
  rw [Call.act, Queue.push_of_full (hs.isClosed.trans hc) hfull]
  refine hs.agrees hact rfl rfl rfl hs.closed (fun x hx => ?_) (hs.mirrors.park w v) rfl rfl
  simp only [Pipeline.parked, Pipeline.park, Fifo.toList_push, List.map_append, List.map_cons,
    List.map_nil, List.mem_append, List.mem_singleton] at hx
  rcases hx with hx | rfl
  · exact hs.last x hx
  · exact ⟨rfl, rfl, rfl⟩

/-! ## Receiving -/

/-- A receive that finds a value takes the same one from the hub and from the queue, and lets in the
same publish. -/
theorem Sole.read (hs : Sole S h p q) {v : α} {rest : List α} (hu : p.unread = v :: rest) :
    ∃ p' q' released, h.tryReceive S =
        ⟨{ h with pipelines := [(S, p')] }, .value v, [], pushedIn released⟩ ∧
      (∀ caller, q.pop caller = ⟨q', .returned (some v), released⟩) ∧
      q.tryPop = ⟨q', some v, released⟩ ∧ poppedIn released = [] ∧
      p'.buffer.closed = h.closed ∧ (∀ w ∈ p'.parked, w.IsLast) ∧
      p'.Mirrors (·.caller) id q' := by
  obtain ⟨p', hread, -, -, -, hshell⟩ := hs.settled.tryReceive hu
  obtain ⟨-, -, hcl, -, -⟩ := Pipeline.shell_eq_iff.mp hshell
  obtain ⟨hpub, hparked⟩ := hs.settled.mem_parked_of_tryReceive hread
  obtain ⟨-, buffer, q', hpop, hlet, hm⟩ := hs.mirrors.read hs.settled hu hread
  set publication := p.waiting.toList.head?.map (·.1) with hpublication
  refine ⟨p', q', publication.toList.map fun w => .pushed w.caller true, ?_,
    fun caller => Queue.pop_of_value hpop hlet, Queue.tryPop_of_value hpop hlet,
    poppedIn_pushed Publication.caller publication.toList true, hcl.trans hs.closed,
    fun w hw => hs.last w (hparked w hw), hm⟩
  simp only [tryReceive, hs.pipeline?, hread]
  rw [resumeAll_last true fun w hw => hs.last w (hpub w hw), setPipeline_only hs.only,
    settle_of_anchored (Or.inl hs.owned), pushedIn_pushed]
  rfl

theorem Sole.busy (hs : Sole S h p q) {reply : Reply Nat Nat α (Answer α)}
    (hact : s.act h call = h.unlessBusy S reply) (hw : q.poppers.isEmpty = false) :
    Agrees S h call s (effectOf ⟨q, (), []⟩ .busy) := by
  refine hs.agrees_still ?_
  rw [hact, unlessBusy, hs.isWaiting, hw]
  rfl

theorem Sole.receive (hs : Sole S h p q) (call : Nat) :
    Agrees S h call (.receive S) (Call.receive.act q call) := by
  rw [Call.act]
  cases hw : q.poppers.isEmpty with
  | false => exact hs.busy rfl hw
  | true =>
    have hfree : (Step.receive S).act h call = (h.receive S call).map .received := by
      rw [Step.act, unlessBusy, hs.isWaiting, hw]
      rfl
    simp only [if_true]
    cases hu : p.unread with
    | cons v rest =>
      obtain ⟨p', q', released, hread, hpop, -, hnone, hclosed, hlast, hm⟩ := hs.read hu
      have hact : (Step.receive S).act h call =
          ⟨{ h with pipelines := [(S, p')] }, .received (.returned (some v)), [],
            pushedIn released⟩ := by
        rw [hfree, Hub.receive, hread]
        rfl
      rw [hpop]
      exact hs.agrees hact rfl rfl rfl hclosed hlast hm rfl hnone
    | nil =>
      have hread := tryReceive_of_nil hs.good.sound hs.good.anchored hs.pipeline? hu
      have hempty : q.buffer.items.toList = [] := hs.mirrors.items.trans hu
      cases hc : h.closed with
      | true =>
        rw [hs.closed, hc, if_pos rfl] at hread
        have hact : (Step.receive S).act h call = ⟨h, .received (.returned none), [], []⟩ := by
          rw [hfree, Hub.receive, hread]
          rfl
        rw [Queue.pop_of_shut hempty (hs.isClosed.trans hc)]
        exact hs.agrees_still hact
      | false =>
        rw [hs.closed, hc, if_neg Bool.false_ne_true] at hread
        have hact : (Step.receive S).act h call =
            ⟨{ h with pipelines := [(S, { p with receiver := some call })] }, .received .parked, [],
              []⟩ := by
          rw [hfree, Hub.receive, hread]
          simp only [hs.pipeline?, setPipeline_only hs.only, Reply.map]
        have hnone : p.receiver = none := by
          rw [hs.mirrors.isEmpty_poppers, Option.isNone_iff_eq_none] at hw
          exact hw
        rw [Queue.pop_of_open hempty (hs.isClosed.trans hc)]
        exact hs.agrees hact rfl rfl rfl hs.closed hs.last (hs.mirrors.await hnone call) rfl rfl

theorem Sole.tryReceive (hs : Sole S h p q) (call : Nat) :
    Agrees S h call (.tryReceive S) (Call.tryReceive.act q call) := by
  rw [Call.act]
  cases hw : q.poppers.isEmpty with
  | false => exact hs.busy rfl hw
  | true =>
    have hfree : (Step.tryReceive S).act h call = (h.tryReceive S).map .tried := by
      rw [Step.act, unlessBusy, hs.isWaiting, hw]
      rfl
    simp only [if_true]
    cases hu : p.unread with
    | cons v rest =>
      obtain ⟨p', q', released, hread, -, hpop, hnone, hclosed, hlast, hm⟩ := hs.read hu
      have hact : (Step.tryReceive S).act h call =
          ⟨{ h with pipelines := [(S, p')] }, .tried (.value v), [], pushedIn released⟩ := by
        rw [hfree, hread]
        rfl
      rw [hpop]
      exact hs.agrees hact rfl rfl rfl hclosed hlast hm rfl hnone
    | nil =>
      have hread := tryReceive_of_nil hs.good.sound hs.good.anchored hs.pipeline? hu
      have hact : (Step.tryReceive S).act h call =
          ⟨h, .tried (receptionOf q none), [], []⟩ := by
        rw [hfree, hread, receptionOf, hs.isClosed, hs.closed]
        rfl
      rw [Queue.tryPop_of_empty (hs.mirrors.items.trans hu)]
      exact hs.agrees_still hact

/-! ## Closing -/

theorem Sole.close (hs : Sole S h p q) (call : Nat) :
    Agrees S h call .close (Call.close.act q call) := by
  obtain ⟨hreleased, hm⟩ := hs.mirrors.retire hs.settled
  have hret : pushedIn q.retire.released = p.parked.map fun w => (w.caller, 0) := by
    rw [hreleased, pushedIn_append, pushedIn_pushed, pushedIn_popped, Pipeline.parked, List.map_map,
      List.append_nil]
    rfl
  have hrec : poppedIn q.retire.released = p.receiver.toList.map (·, none) := by
    rw [hreleased, poppedIn_append, poppedIn_pushed, poppedIn_popped]
    rfl
  cases hc : h.closed with
  | true =>
    have hact : (Step.close : Step α).act h call = ⟨h, .done, [], []⟩ := by
      rw [Step.act, byOwner, if_pos hs.owned, close_of_closed hc]
      rfl
    have hcp : p.buffer.closed = true := hs.closed.trans hc
    obtain ⟨hwait, hnone⟩ := hs.settled.idle_of_closed hcp
    rw [Pipeline.parked, hwait] at hret
    rw [hnone] at hrec
    rw [hs.settled.retired_of_closed hcp] at hm
    exact hs.agrees hact rfl rfl hs.only hs.closed hs.last hm hret hrec
  | false =>
    have hretire : retireAll h.pipelines =
        ([(S, p.retired)], p.receiver.toList.map (·, none), p.parked) := by
      rw [hs.good.sound.retireAll_eq, parkedPublications, hs.only]
      simp
    have hclose : h.close = ⟨{ h with pipelines := [(S, p.retired)], closed := true }, (),
        p.receiver.toList.map (·, none), p.parked.map fun w => (w.caller, 0)⟩ := by
      rw [Hub.close, hc, if_neg Bool.false_ne_true, hretire]
      exact resumeAll_last false hs.last _
    have hact : (Step.close : Step α).act h call =
        ⟨{ h with pipelines := [(S, p.retired)], closed := true }, .done,
          p.receiver.toList.map (·, none), p.parked.map fun w => (w.caller, 0)⟩ := by
      rw [Step.act, byOwner, if_pos hs.owned, hclose]
      rfl
    exact hs.agrees hact rfl rfl rfl rfl (fun w hw => absurd hw List.not_mem_nil) hm hret hrec

/-- **Every call agrees with its operation on the queue.** -/
theorem Sole.agrees_call (hs : Sole S h p q) (call : Nat) (c : Call α) :
    Agrees S h call (c.step S) (c.act q call) := by
  cases c with
  | publish order v =>
    cases hc : h.closed with
    | true => exact hs.publish_closed hc call order v
    | false =>
      cases hroom : p.buffer.hasRoom with
      | true => exact hs.publish_stored hc hroom call order v
      | false => exact hs.publish_parked hc hroom call order v
  | receive => exact hs.receive call
  | tryReceive => exact hs.tryReceive call
  | close => exact hs.close call

end sole

/-! ## Runs -/

/-- **A run of calls agrees with the run of their operations on the queue.** -/
theorem Run.effects_eq {S : SubscriptionId} {r : Run α} {p : Pipeline (Publication Nat α) Nat α}
    {q : Queue Nat Nat α} (hs : Sole S r.hub p q) (calls : List (Call α)) :
    r.effects S (calls.map (·.step S)) = effectsAt q r.calls calls := by
  induction calls generalizing r p q with
  | nil => rfl
  | cons c rest ih =>
    obtain ⟨p', hs', heffect⟩ := hs.agrees_call r.calls c
    rw [List.map_cons, Run.effects, effectsAt, heffect, ih (r := r.next (c.step S)) hs']
    rfl

/-- A subscription made on a reliable hub without others stands alone in it. -/
theorem sole_of_subscribe {label : String} {before : List (Step α)} {n : Nat} {S : SubscriptionId}
    (hnone : (run label .reliable before).hub.pipelines = [])
    (hopen : (run label .reliable before).hub.closed = false)
    (hS : ((Step.subscribe n).act (run label .reliable before).hub before.length).result =
      .subscribed S) :
    Sole S (run label .reliable (before ++ [.subscribe n])).hub (.new n)
      (.new (min (max n 1) maxChannel + 1 + max n 1)) := by
  have howned : (run label .reliable before).hub.owned = true := by
    by_contra ho
    simp [Step.act, byOwner, ho] at hS
  have hname := (Run.pipeline?_of_subscribe (run_good label .reliable before).sound hopen hS).1
  have hhub : (run label .reliable (before ++ [.subscribe n])).hub =
      { (run label .reliable before).hub with
        lastId := S
        pipelines := [(S, .new n)] } := by
    rw [run_append]
    simp only [Run.extend_cons, Run.extend_nil, Run.next, Step.act, byOwner, howned, if_true,
      Hub.subscribe, hopen, Bool.false_eq_true, if_false, register, hnone, ← hname, List.nil_append]
  have hpolicy := (run_turns label .reliable before).1.policy
  constructor
  · exact run_good label .reliable _
  · rw [hhub]
    exact hpolicy
  · rw [hhub]
    exact howned
  · rw [hhub]
  · rw [hhub]
    exact hopen.symm
  · exact fun w hw => absurd hw List.not_mem_nil
  · exact Pipeline.mirrors_new n

/-- **The only subscription of a reliable hub is one blocking queue.** It is made on an open hub
with a buffer of `n` values, while nobody holds another. From then on values are published, the
holder receives with or without waiting, and the hub may be closed. Every call comes to the same as
at a queue as large as the buffer, the channel and the hand together: a publish is a push and counts
the queue if that took its value, a receive is a pop, and closing retires the queue. The same calls
wait and return in the same order with the same results, and the holder is told that the
subscription has ended exactly when the queue is shut and empty. -/
theorem only_subscription_is_queue {label : String} {before : List (Step α)} {n : Nat}
    {S : SubscriptionId} (hnone : (run label .reliable before).hub.pipelines = [])
    (hopen : (run label .reliable before).hub.closed = false)
    (hS : ((Step.subscribe n).act (run label .reliable before).hub before.length).result =
      .subscribed S) (calls : List (Call α)) :
    let r := run label .reliable (before ++ [.subscribe n])
    r.effects S (calls.map (·.step S)) =
      effectsAt (.new (min (max n 1) 65536 + 1 + max n 1)) r.calls calls :=
  Run.effects_eq (sole_of_subscribe hnone hopen hS) calls

/-- Three values fill a subscription with a buffer of one, and two more publishes wait. A receive
moves a value in every stage and lets in the first of them; the close turns the other away. -/
theorem only_subscription_is_queue_full :
    let calls : List (Call Nat) := [.publish [] 7, .publish [] 8, .publish [] 9, .publish [] 10,
      .publish [] 11, .receive, .close, .receive, .tryReceive, .receive, .tryReceive]
    let r := run "hub" .reliable [.subscribe 1]
    r.effects 1 (calls.map (·.step 1)) = effectsAt (.new 3) 1 calls ∧
      (r.effects 1 (calls.map (·.step 1)))[5]? =
        some ⟨.received (.returned (some 7)), [(4, 1)], [], false⟩ ∧
      (r.effects 1 (calls.map (·.step 1)))[6]? = some ⟨.done, [(5, 0)], [], false⟩ ∧
      (r.effects 1 (calls.map (·.step 1)))[10]? = some ⟨.tried .ended, [], [], true⟩ := by
  intro calls r
  have h := @only_subscription_is_queue Nat "hub" [] 1 1 rfl rfl rfl calls
  exact ⟨h, by decide, by decide, by decide⟩

end Hub

end Switchboard
