import Switchboard.Proofs.Hub.Line
import Switchboard.Proofs.Session.Notices

/-!
# The only subscriber hears everything

What the holder of a subscription to the messages is handed over a run.

**Letters** (`Run.letters`). A message is handed over at once, by a receive that finds it, or later,
by a receive that was waiting and has returned.

**Conservation** (`Relays`). While there is no other subscription, what has been handed over and what
is in line are together what has been told: each transition adds its message at the end, and a receive
moves the head of the line.

**Main statement** (`messages_tell_transitions`). The messages of a run tell its transitions, and the
only subscriber hears them all, in order.
-/

namespace Switchboard.Session

open Hub (Use)

/-! ## Letters -/

/-- The handle on which a call receives messages, if the steps made so far say so. -/
def mailboxOf (steps : List Step) (call : Nat) : Option SubscriptionId :=
  match steps[call]? with
  | some (.messages id _) => some id
  | _ => none

/-- The messages with which receives on a handle have returned, where `box` says on which handle a
call was made. -/
def lettersIn (box : Nat → Option SubscriptionId) (id : SubscriptionId)
    (completions : List Completion) : List Message :=
  completions.filterMap fun
    | .message call m => if box call = some id then m else none
    | _ => none

/-- The messages that a step hands at once to the holder of a handle, on which nothing waits. -/
def Step.letters (s : Session) (call : Nat) (id : SubscriptionId) : Step → List Message
  | messages i use =>
    if i ≠ id || s.messages.isWaiting id then []
    else
      match use with
      | .receive => (s.receiveMessage id call).2.values
      | .tryReceive => (s.tryReceiveMessage id).2.values
      | .drain => (s.drainMessages id).2.values
      | .cancel | .abandon => []
  | _ => []

/-- The messages handed over through a handle in some steps that follow a run: in each step those
handed over at once, and then those with which parked receives returned. -/
def Run.letters (r : Run) (id : SubscriptionId) : List Step → List Message
  | [] => []
  | st :: steps =>
    st.letters r.session r.steps.length id ++
      lettersIn (mailboxOf (r.steps ++ [st])) id
        (st.act r.session r.steps.length r.handles).session.completions ++
      (r.next st).letters id steps

section letters

variable {box : Nat → Option SubscriptionId} {id S : SubscriptionId}

theorem mailboxOf_append {steps : List Step} {call : Nat} (h : mailboxOf steps call = some id)
    (more : List Step) : mailboxOf (steps ++ more) call = some id := by
  unfold mailboxOf at h ⊢
  cases hs : steps[call]? with
  | none => simp [hs] at h
  | some st =>
    rw [hs] at h
    rw [List.getElem?_append_left (List.getElem?_eq_some_iff.mp hs).1, hs]
    exact h

@[simp] theorem lettersIn_append (completions completions' : List Completion) :
    lettersIn box id (completions ++ completions') =
      lettersIn box id completions ++ lettersIn box id completions' :=
  List.filterMap_append

theorem lettersIn_returned (s : Session) :
    lettersIn box id s.returned = lettersIn box id s.completions := by
  rw [lettersIn, returned, List.filterMap_filter]
  refine List.filterMap_congr fun c _ => ?_
  cases c <;> rfl

theorem lettersIn_completions (returned : List (LifecycleCall × Nat)) :
    lettersIn box id (returned.filterMap (·.1.completion)) = [] := by
  rw [lettersIn, List.filterMap_filterMap, List.filterMap_eq_nil_iff]
  rintro ⟨_ | _ | _, _⟩ - <;> rfl

theorem lettersIn_messages {received : List (Nat × Option Message)}
    (h : ∀ x ∈ received, box x.1 = some id) :
    lettersIn box id (received.map fun r => .message r.1 r.2) = received.filterMap (·.2) := by
  rw [lettersIn, List.filterMap_map]
  refine List.filterMap_congr fun x hx => ?_
  exact if_pos (h x hx)

end letters

/-! ## The only subscription -/

/-- The subscription `S` stands alone in the message hub, and whoever waits made the call on it. -/
structure Listens (box : Nat → Option SubscriptionId) (S : SubscriptionId) (b : Books)
    (p : Pipeline (Publication LifecycleCall Message) Nat Message) : Prop where
  lone : b.messages.Lone S p
  holder : ∀ call, p.receiver = some call → box call = some S
  isOpen : b.released = false → b.messages.closed = false

/-- From one moment to another some messages join what was handed over and what is in line. A holder
who does not wait is handed nothing in between. -/
def Relays (box : Nat → Option SubscriptionId) (S : SubscriptionId) (b : Books)
    (news : List Message) (b' : Books) : Prop :=
  ∀ p, Listens box S b p → ∃ p', Listens box S b' p' ∧
    (p.receiver = none → p'.receiver = none ∧
      lettersIn box S b'.returned = lettersIn box S b.returned) ∧
    lettersIn box S b'.returned ++ p'.line = lettersIn box S b.returned ++ p.line ++ news

section relays

variable {box : Nat → Option SubscriptionId} {S : SubscriptionId} {b b' b'' : Books}
  {news news' : List Message} {p : Pipeline (Publication LifecycleCall Message) Nat Message}

theorem Listens.mono {box' : Nat → Option SubscriptionId} (hl : Listens box S b p)
    (h : ∀ call, box call = some S → box' call = some S) : Listens box' S b p :=
  ⟨hl.lone, fun call hr => h call (hl.holder call hr), hl.isOpen⟩

theorem Relays.of_eq (hm : b'.messages = b.messages) (hrel : b'.released = b.released)
    (hret : b'.returned = b.returned) : Relays box S b [] b' := by
  intro p hl
  refine ⟨p, ⟨hm ▸ hl.lone, hl.holder, ?_⟩, fun hr => ⟨hr, by rw [hret]⟩, ?_⟩
  · rw [hm, hrel]
    exact hl.isOpen
  · rw [hret, List.append_nil]

theorem Relays.trans (h : Relays box S b news b') (h' : Relays box S b' news' b'') :
    Relays box S b (news ++ news') b'' := by
  intro p hl
  obtain ⟨p', hl', hidle, hline⟩ := h p hl
  obtain ⟨p'', hl'', hidle', hline'⟩ := h' p' hl'
  refine ⟨p'', hl'', fun hr => ?_, ?_⟩
  · obtain ⟨hr', hsame⟩ := hidle hr
    obtain ⟨hr'', hsame'⟩ := hidle' hr'
    exact ⟨hr'', hsame'.trans hsame⟩
  · rw [hline', hline, List.append_assoc]

theorem Relays.announce (hrel : b.released = false) (who : LifecycleCall) (m : Message) :
    Relays box S b [m] (b.announce who m) := by
  intro p hl
  obtain ⟨p', hlone, hreceiver, hreceived, hline⟩ := hl.lone.publish (hl.isOpen hrel) who m
  have hletters : lettersIn box S (b.announce who m).returned =
      lettersIn box S b.returned ++ (b.messages.publish who m).received.filterMap (·.2) := by
    refine (lettersIn_append _ _).trans (congrArg _ (lettersIn_messages fun x hx => ?_))
    exact hl.holder _ (hreceived x hx)
  refine ⟨p', ⟨hlone, fun call hr => hl.holder call (hreceiver call hr), fun _ => ?_⟩,
    fun hr => ⟨?_, ?_⟩, ?_⟩
  · exact (Hub.publishEach_closed who [] [m] _).trans (hl.isOpen hrel)
  · cases hr' : p'.receiver with
    | none => rfl
    | some call =>
      rw [hreceiver call hr'] at hr
      cases hr
  · have hnone : (b.messages.publish who m).received = [] := by
      refine List.eq_nil_iff_forall_not_mem.mpr fun x hx => ?_
      rw [hreceived x hx] at hr
      cases hr
    rw [hletters, hnone]
    exact List.append_nil _
  · rw [hletters, List.append_assoc, hline, List.append_assoc]

/-- The hub is closed when nobody holds the state, and so nothing is parked. -/
theorem Relays.release (hidle : b.messages.parkedPublications = []) :
    Relays box S b [] b.release := by
  intro p hl
  obtain ⟨p', hlone, hnone, hreceived, hline⟩ := hl.lone.close hidle
  have hmessages : b.release.messages = b.messages.close.hub := by
    unfold Books.release
    cases b.installed <;> rfl
  have hletters : lettersIn box S b.release.returned = lettersIn box S b.returned := by
    have hreturned : b.release.returned =
        b.returned ++ b.messages.close.received.map fun r => .message r.1 r.2 := by
      unfold Books.release
      cases b.installed <;> rfl
    rw [hreturned, lettersIn_append, lettersIn_messages fun x hx => hl.holder _ (hreceived x hx).1]
    have hnothing : b.messages.close.received.filterMap (·.2) = [] :=
      List.filterMap_eq_nil_iff.mpr fun x hx => (hreceived x hx).2
    rw [hnothing, List.append_nil]
  refine ⟨p', ⟨hmessages ▸ hlone, fun call hr => ?_, fun hrel => ?_⟩, fun _ => ⟨hnone, hletters⟩, ?_⟩
  · rw [hnone] at hr
    cases hr
  · have hgone : b.release.released = true := by
      unfold Books.release
      cases b.installed <;> rfl
    rw [hgone] at hrel
    cases hrel
  · rw [hletters, hline, List.append_nil]

/-- **A deed that is not about subscriptions relays the messages of its transitions.** -/
theorem Deed.relays {step : Step} {call : Nat} {owner : Nat → Option CauseHandle} {t t' : Scene}
    {log : List Transition} (h : Deed step call owner t log t') (hv : Valid owner t)
    (hstep : ¬ step.Mails) :
    Relays box S t.session.books (log.map (·.message)) t'.session.books := by
  cases h with
  | still _ hbooks _ =>
    rw [hbooks]
    exact .of_eq rfl rfl rfl
  | refuse _ => exact .of_eq rfl rfl rfl
  | fail _ hfail =>
    rw [establish_of_fail hfail]
    exact .of_eq rfl rfl rfl
  | reject _ hok _ =>
    show Relays box S _ _ (Session.reject _ _).books
    rw [books_reject, books_establish hok]
    exact .of_eq rfl rfl rfl
  | @turned τ ready ho =>
    obtain ⟨hafter, -⟩ := ho.books
    obtain ⟨hmessages, hreleased, hreturned⟩ := ho.apart
    have hsame : Relays box S t.session.books [] τ.session.books :=
      .of_eq hmessages hreleased hreturned
    have hrel : τ.session.released = false := hreleased.trans (ho.not_released hv)
    show Relays box S _ [τ.message] τ.after.books
    rw [hafter]
    exact hsame.trans (.announce hrel τ.caller τ.message)
  | release _ _ hheld =>
    show Relays box S _ _ t.session.release.books
    rw [books_release]
    refine .release ?_
    rw [isHeld, Bool.or_eq_false_iff, Bool.not_eq_false', List.isEmpty_iff] at hheld
    exact hheld.2
  | mail hmails _ => exact absurd hmails hstep

theorem Deeds.relays {step : Step} {call : Nat} {owner : Nat → Option CauseHandle} {t t' : Scene}
    {log : List Transition} (h : Deeds step call owner t log t') (hv : Valid owner t)
    (hstep : ¬ step.Mails) :
    Relays box S t.session.books (log.map (·.message)) t'.session.books := by
  induction h with
  | refl _ => exact .of_eq rfl rfl rfl
  | head hdeed _ ih =>
    rw [List.map_append]
    exact (hdeed.relays hv hstep).trans (ih ((hdeed.turns hv).valid hv))

end relays

/-! ## Receiving -/

section receiving

variable {owner : Nat → Option CauseHandle} {box : Nat → Option SubscriptionId} {S : SubscriptionId}
  {t : Scene} {p p' : Pipeline (Publication LifecycleCall Message) Nat Message}

theorem settle_relays (hv : Valid owner t) (hr : t.ready = []) :
    Relays box S t.session.books (t.session.settleLog.map (·.message)) t.session.settle.books := by
  have hdeeds : Deeds .snapshotPlayers 0 owner t t.session.settleLog (t.on t.session.settle) :=
    settle_deeds hv hr
  exact hdeeds.relays hv fun h => h

theorem absorb_relays (hv : Valid owner t) (hr : t.ready = []) {β : Type}
    {reply : Hub.Reply LifecycleCall Nat Message β}
    (hh : Handled t.session.messages reply.hub reply.received reply.returned)
    (hl : Listens box S t.session.books p) (hreceived : reply.received = [])
    (hlone : reply.hub.Lone S p') (hholder : ∀ call, p'.receiver = some call → box call = some S) :
    ∃ p'', Listens box S (t.session.absorb reply).books p'' ∧
      (p'.receiver = none → p''.receiver = none ∧
        lettersIn box S (t.session.absorb reply).returned = lettersIn box S t.session.returned) ∧
      lettersIn box S (t.session.absorb reply).returned ++ p''.line =
        lettersIn box S t.session.returned ++ p'.line ++
          (t.session.absorbLog reply).map (·.message) := by
  set s := t.session.passOn reply.hub reply.received reply.returned
  have hmail : Deeds (.messages 0 .cancel) 0 owner t [] (t.on s) := .single (.mail trivial hh)
  have hbooks : s.books = t.session.books.passOn reply.hub reply.received reply.returned :=
    books_passOn _ _ _ _
  have hletters : lettersIn box S s.returned = lettersIn box S t.session.returned := by
    have hreturned : s.returned = t.session.returned ++
        reply.received.map (fun r => .message r.1 r.2) ++
          reply.returned.filterMap (·.1.completion) := congrArg Books.returned hbooks
    rw [hreturned, hreceived, lettersIn_append, lettersIn_completions]
    simp
  have hlistens : Listens box S s.books p' := by
    rw [hbooks]
    exact ⟨hlone, hholder, fun hrel => (hh.owned hl.lone.owned).1.trans (hl.isOpen hrel)⟩
  have hsettle : Relays box S s.books (s.settleLog.map (·.message)) s.settle.books :=
    settle_relays (t := t.on s) (hmail.valid hv) hr
  obtain ⟨p'', hl'', hidle, hline⟩ := hsettle p' hlistens
  rw [absorb_eq]
  refine ⟨p'', hl'', fun hnone => ?_, ?_⟩
  · obtain ⟨hnone', hsame⟩ := hidle hnone
    exact ⟨hnone', hsame.trans hletters⟩
  · refine hline.trans ?_
    rw [show lettersIn box S s.books.returned = _ from hletters]
    rfl

/-- **A receive that does not wait hands over the head of the line.** -/
theorem tryReceiveMessage_relays (hv : Valid owner t) (hr : t.ready = [])
    (hl : Listens box S t.session.books p) (hnone : p.receiver = none) :
    ∃ p', Listens box S (t.session.tryReceiveMessage S).1.books p' ∧ p'.receiver = none ∧
      lettersIn box S (t.session.tryReceiveMessage S).1.returned =
        lettersIn box S t.session.returned ∧
      (t.session.tryReceiveMessage S).2.values ++ p'.line =
        p.line ++ (t.session.absorbLog (t.session.messages.tryReceive S)).map (·.message) := by
  have hlone : t.session.messages.Lone S p := hl.lone
  obtain ⟨p₁, hl₁, hreceiver, hreceived, hline, -, -⟩ := hlone.tryReceive
  obtain ⟨p', hl', hidle, hline'⟩ := absorb_relays hv hr (.tryReceive S) hl hreceived hl₁
    fun call hcall => hl.holder call (hreceiver ▸ hcall)
  obtain ⟨hnone', hsame⟩ := hidle (hreceiver.trans hnone)
  refine ⟨p', hl', hnone', hsame, ?_⟩
  rw [hsame, List.append_assoc] at hline'
  show (t.session.messages.tryReceive S).result.values ++ p'.line = _
  rw [List.append_cancel_left hline', ← List.append_assoc, hline]

/-- **A drain hands over messages one after another.** -/
theorem drainMessagesUpTo_relays (fuel : Nat) (acc : List Message) (hv : Valid owner t)
    (hr : t.ready = []) (hl : Listens box S t.session.books p) (hnone : p.receiver = none) :
    ∃ p' values, Listens box S (drainMessagesUpTo S fuel acc t.session).1.books p' ∧
      lettersIn box S (drainMessagesUpTo S fuel acc t.session).1.returned =
        lettersIn box S t.session.returned ∧
      (drainMessagesUpTo S fuel acc t.session).2.values = acc.reverse ++ values ∧
      values ++ p'.line =
        p.line ++ (drainMessagesUpToLog S fuel t.session).map (·.message) := by
  induction fuel generalizing acc t p with
  | zero => exact ⟨p, [], hl, rfl, (List.append_nil _).symm, (List.append_nil _).symm⟩
  | succ fuel ih =>
    obtain ⟨p₁, hl₁, hnone₁, hsame₁, hline₁⟩ := tryReceiveMessage_relays hv hr hl hnone
    have hstep : Step.Mails (.messages S .drain) := trivial
    have hfirst : Deeds (.messages S .drain) 0 owner t _
        (t.on (t.session.tryReceiveMessage S).1) := absorb_deeds hv hr hstep (.tryReceive S)
    have hv₁ := hfirst.valid hv
    rw [drainMessagesUpTo, drainMessagesUpToLog]
    rcases hresult : t.session.tryReceiveMessage S with ⟨s, m | _ | _⟩
    all_goals
      rw [hresult] at hl₁ hsame₁ hline₁ hv₁
      dsimp only at hl₁ hsame₁ hline₁ ⊢
    · obtain ⟨p', values, hl', hsame, hvalues, hline⟩ := ih (t := t.on s) (m :: acc) hv₁ hr hl₁ hnone₁
      refine ⟨p', m :: values, hl', hsame.trans hsame₁, ?_, ?_⟩
      · refine Eq.trans hvalues ?_
        rw [List.reverse_cons, List.append_assoc]
        rfl
      · rw [List.cons_append, hline, List.map_append, ← List.append_assoc, ← hline₁]
        rfl
    · exact ⟨p₁, [], hl₁, hsame₁, (List.append_nil _).symm, by rw [List.append_nil]; exact hline₁⟩
    · exact ⟨p₁, [], hl₁, hsame₁, (List.append_nil _).symm, by rw [List.append_nil]; exact hline₁⟩

variable {call : Nat}

theorem useMessages_others (hv : Valid owner t) (hr : t.ready = [])
    (hl : Listens box S t.session.books p) {id : SubscriptionId} (hne : id ≠ S) (use : Use) :
    ∃ p', Listens box S (t.session.useMessages id call use).books p' ∧
      lettersIn box S (t.session.useMessages id call use).returned ++ p'.line =
        lettersIn box S t.session.returned ++ p.line ++
          (t.session.useMessagesLog id call use).map (·.message) := by
  have hlone : t.session.messages.Lone S p := hl.lone
  obtain ⟨htry, hreceive, hcancel, habandon⟩ := hlone.others hne call
  have habsorb : ∀ {β : Type} {reply : Hub.Reply LifecycleCall Nat Message β},
      Handled t.session.messages reply.hub reply.received reply.returned →
      reply.hub = t.session.messages → reply.received = [] →
      ∃ p', Listens box S (t.session.absorb reply).books p' ∧
        lettersIn box S (t.session.absorb reply).returned ++ p'.line =
          lettersIn box S t.session.returned ++ p.line ++
            (t.session.absorbLog reply).map (·.message) := by
    intro β reply hh hhub hreceived
    obtain ⟨p', hl', -, hline⟩ := absorb_relays hv hr hh hl hreceived (hhub ▸ hlone) hl.holder
    exact ⟨p', hl', hline⟩
  have hfree : t.session.messages.isWaiting id = false := by
    rw [Hub.isWaiting, hlone.pipeline?_of_ne hne]
    rfl
  unfold useMessages useMessagesLog
  rw [hfree]
  cases use with
  | receive => exact habsorb (.receive id call) (by rw [hreceive]) (by rw [hreceive])
  | tryReceive => exact habsorb (.tryReceive id) (by rw [htry]) (by rw [htry])
  | drain =>
    have hended : t.session.tryReceiveMessage id =
        (t.session.absorb (t.session.messages.tryReceive id), .ended) := by
      rw [tryReceiveMessage, htry]
    simp only [Bool.false_eq_true, if_false, drainMessages, drainMessagesUpTo,
      drainMessagesUpToLog, hended, List.append_nil]
    exact habsorb (.tryReceive id) (by rw [htry]) (by rw [htry])
  | cancel => exact habsorb (.cancel id) (by rw [hcancel]) (by rw [hcancel])
  | abandon => exact habsorb (.abandon id) (by rw [habandon]) (by rw [habandon])

/-- **A use of the subscription hands over messages from the head of the line.** -/
theorem useMessages_relays (hv : Valid owner t) (hr : t.ready = [])
    (hl : Listens box S t.session.books p) (hbox : box call = some S)
    (hnone : lettersIn box S t.session.returned = []) {use : Use} (hcancel : use ≠ .cancel)
    (habandon : use ≠ .abandon) :
    ∃ p', Listens box S (t.session.useMessages S call use).books p' ∧
      (Step.messages S use).letters t.session call S ++
          lettersIn box S (t.session.useMessages S call use).returned ++ p'.line =
        p.line ++ (t.session.useMessagesLog S call use).map (·.message) := by
  have hlone : t.session.messages.Lone S p := hl.lone
  have hwaiting : t.session.messages.isWaiting S = p.receiver.isSome := hlone.isWaiting
  unfold useMessages useMessagesLog Step.letters
  rw [hwaiting]
  cases hreceiver : p.receiver with
  | some waiter =>
    refine ⟨p, ?_, ?_⟩
    · cases use with
      | cancel => exact absurd rfl hcancel
      | abandon => exact absurd rfl habandon
      | _ => exact hl
    · cases use with
      | cancel => exact absurd rfl hcancel
      | abandon => exact absurd rfl habandon
      | _ => simp [hnone]
  | none =>
    simp only [ne_eq, not_true, decide_false, Bool.false_or, Option.isSome_none,
      Bool.false_eq_true, if_false]
    cases use with
    | receive =>
      obtain ⟨p₁, hl₁, hholder, hreceived, hline, -⟩ := hlone.receive call
      obtain ⟨p', hl', -, hline'⟩ := absorb_relays hv hr (.receive S call) hl hreceived hl₁
        fun c hc => (hholder c hc).elim (hl.holder c) fun h => h ▸ hbox
      refine ⟨p', hl', ?_⟩
      rw [hnone, List.nil_append] at hline'
      show (t.session.messages.receive S call).result.values ++ _ ++ _ = _
      rw [List.append_assoc]
      refine (congrArg _ hline').trans ?_
      rw [← List.append_assoc, hline]
    | tryReceive =>
      obtain ⟨p', hl', -, hsame, hline⟩ := tryReceiveMessage_relays hv hr hl hreceiver
      refine ⟨p', hl', ?_⟩
      rw [hsame, hnone, List.append_nil]
      exact hline
    | drain =>
      obtain ⟨p', values, hl', hsame, hvalues, hline⟩ :=
        drainMessagesUpTo_relays (t.session.messages.backlog S + t.session.watches.length + 1) []
          hv hr hl hreceiver
      refine ⟨p', hl', ?_⟩
      rw [drainMessages, hsame, hnone, List.append_nil, hvalues]
      exact hline
    | cancel => exact absurd rfl hcancel
    | abandon => exact absurd rfl habandon

end receiving

/-! ## Names of subscriptions -/

section names

theorem Handled.lastId_le {h hub : Hub LifecycleCall Nat Message}
    {received : List (Nat × Option Message)} {returned : List (LifecycleCall × Nat)}
    (hh : Handled h hub received returned) (hg : h.Good) : h.lastId ≤ hub.lastId := by
  obtain ⟨log, hturns, -⟩ := hh.exists_turns hg
  exact hturns.lastId_le

variable {step : Step} {call : Nat} {owner : Nat → Option CauseHandle} {t t' : Scene}
  {log : List Transition}

theorem Deed.lastId_le (h : Deed step call owner t log t') (hv : Valid owner t) :
    t.session.messages.lastId ≤ t'.session.messages.lastId := by
  cases h with
  | still _ hbooks _ =>
    exact Nat.le_of_eq (congrArg (fun b : Books => b.messages.lastId) hbooks).symm
  | refuse _ => exact Nat.le_refl _
  | fail _ hfail =>
    rw [establish_of_fail hfail]
    exact Nat.le_refl _
  | reject _ hok _ =>
    exact Nat.le_of_eq
      (congrArg (fun b : Books => b.messages.lastId) (books_establish hok)).symm
  | @turned τ ready ho =>
    obtain ⟨hafter, -⟩ := ho.books
    have hpublish : τ.after.messages = (τ.session.messages.publish τ.caller τ.message).hub :=
      congrArg Books.messages hafter
    show _ ≤ τ.after.messages.lastId
    rw [hpublish, ho.apart.1]
    exact Nat.le_of_eq (Hub.publishAll_frame _ _ _ _).2.symm
  | release _ _ _ =>
    have hmessages : t.session.release.messages = t.session.messages.close.hub := by
      have hbooks := congrArg Books.messages (books_release t.session)
      refine hbooks.trans ?_
      unfold Books.release
      cases t.session.books.installed <;> rfl
    show _ ≤ t.session.release.messages.lastId
    rw [hmessages]
    exact Nat.le_of_eq t.session.messages.close_moves.frame.2.symm
  | @mail hub received returned _ hh =>
    have hmessages : (t.session.passOn hub received returned).messages = hub :=
      congrArg Books.messages (books_passOn t.session hub received returned)
    show _ ≤ (t.session.passOn hub received returned).messages.lastId
    rw [hmessages]
    exact hh.lastId_le hv.accounted.good

theorem Deeds.lastId_le (h : Deeds step call owner t log t') (hv : Valid owner t) :
    t.session.messages.lastId ≤ t'.session.messages.lastId := by
  induction h with
  | refl _ => exact Nat.le_refl _
  | head hdeed _ ih => exact (hdeed.lastId_le hv).trans (ih ((hdeed.turns hv).valid hv))

theorem Run.AtRest.lastId_le {r : Run} (hr : r.AtRest) (steps : List Step) :
    r.session.messages.lastId ≤ (r.extend steps).session.messages.lastId := by
  induction steps generalizing r with
  | nil => exact Nat.le_refl _
  | cons st steps ih =>
    have hstep := (hr.deeds st).lastId_le (hr.valid.append [st])
    exact hstep.trans (ih (hr.next st))

end names

/-! ## Steps and runs -/

section runs

variable {r : Run} {S : SubscriptionId}
  {p : Pipeline (Publication LifecycleCall Message) Nat Message}

theorem letters_of_not_mails {st : Step} (hst : ¬ st.Mails) (s : Session) (call : Nat)
    (id : SubscriptionId) : st.letters s call id = [] := by
  cases st with
  | messages i use => exact absurd trivial hst
  | _ => rfl

theorem Run.AtRest.lettersIn_eq_nil (hr : r.AtRest) (box : Nat → Option SubscriptionId) :
    lettersIn box S r.session.returned = [] := by
  rw [lettersIn_returned, hr.collected]
  rfl

theorem Run.messages_subscribe (hh : r.session.hasHandle = true) (n : Nat) :
    (r.next (.subscribeMessages n)).session.messages = (r.session.messages.subscribe n).1 := by
  have hact : Step.act r.session r.steps.length r.handles (.subscribeMessages n) =
      (r.session.subscribeMessages n).1.plain := if_pos hh
  show (Step.act r.session r.steps.length r.handles (.subscribeMessages n)).session.messages = _
  rw [hact]
  rfl

theorem Run.lastId_subscribe (hh : r.session.hasHandle = true)
    (hopen : r.session.messages.closed = false) (n : Nat) :
    (r.next (.subscribeMessages n)).session.messages.lastId = r.session.messages.lastId + 1 := by
  rw [Run.messages_subscribe hh, Hub.subscribe, if_neg (by simp [hopen])]
  rfl

/-- **A step hands over messages from the head of the line**, and adds those of its transitions. -/
theorem Run.AtRest.letters_next (hr : r.AtRest) (hl : Listens (mailboxOf r.steps) S r.session.books p)
    {st : Step} (hcancel : st ≠ .messages S .cancel) (habandon : st ≠ .messages S .abandon)
    (hone : (r.next st).session.messages.lastId ≤ S) :
    ∃ p', Listens (mailboxOf (r.steps ++ [st])) S (r.next st).session.books p' ∧
      st.letters r.session r.steps.length S ++
          lettersIn (mailboxOf (r.steps ++ [st])) S
            (st.act r.session r.steps.length r.handles).session.completions ++ p'.line =
        p.line ++ (r.log st).map (·.message) := by
  set box := mailboxOf (r.steps ++ [st])
  have hl : Listens box S r.session.books p := hl.mono fun _ h => mailboxOf_append h _
  have hnone : lettersIn box S r.session.returned = [] := hr.lettersIn_eq_nil box
  rw [← lettersIn_returned]
  -- What the next run listens to is what the step has left.
  suffices h : ∃ p', Listens box S (st.act r.session r.steps.length r.handles).session.books p' ∧
      st.letters r.session r.steps.length S ++
          lettersIn box S (st.act r.session r.steps.length r.handles).session.returned ++ p'.line =
        p.line ++ (r.log st).map (·.message) by
    obtain ⟨p', hl', hline⟩ := h
    exact ⟨p', ⟨hl'.lone, hl'.holder, hl'.isOpen⟩, hline⟩
  by_cases hst : st.Mails
  case neg =>
    obtain ⟨p', hl', -, hline⟩ := (hr.deeds st).relays (hr.valid.append [st]) hst p hl
    rw [show lettersIn box S r.scene.session.books.returned = [] from hnone, List.nil_append] at hline
    rw [letters_of_not_mails hst, List.nil_append]
    exact ⟨p', hl', hline⟩
  case pos =>
    cases st with
    | messages i use =>
      by_cases hi : i = S
      · subst hi
        have hbox : box r.steps.length = some i := by simp [box, mailboxOf]
        exact useMessages_relays (t := r.scene) hr.valid rfl hl hbox hnone (fun h => hcancel (by rw [h]))
          fun h => habandon (by rw [h])
      · obtain ⟨p', hl', hline⟩ :
            ∃ p', Listens box S (r.session.useMessages i r.steps.length use).books p' ∧ _ :=
          useMessages_others hr.valid rfl hl hi use
        rw [show lettersIn box S r.scene.session.returned = [] from hnone, List.nil_append] at hline
        have hletters : (Step.messages i use).letters r.session r.steps.length S = [] :=
          if_pos (by simp [hi])
        rw [hletters, List.nil_append]
        exact ⟨p', hl', hline⟩
    | subscribeMessages n =>
      have hbound : S ≤ r.session.messages.lastId :=
        (hl.lone.good.sound.named (S, p) (hl.lone.only ▸ List.mem_singleton_self _)).2
      have hact : Step.act r.session r.steps.length r.handles (.subscribeMessages n) =
          r.session.byHolder (r.session.subscribeMessages n).1.plain := rfl
      have hheld : ¬ r.session.hasHandle = true := by
        intro hh
        -- Another subscription would take the next name.
        rw [Run.lastId_subscribe hh (hl.isOpen (hr.valid.not_released_of_handle hh))] at hone
        exact absurd (hone.trans hbound) (Nat.not_succ_le_self _)
      rw [hact, byHolder, if_neg hheld]
      refine ⟨p, hl, ?_⟩
      rw [show lettersIn box S r.session.plain.session.returned = [] from hnone]
      exact (List.append_nil _).symm
    | _ => exact absurd hst id

/-- **Over a run the messages handed over and those in line are the messages of its transitions**, in
order, while there is no other subscription. -/
theorem Run.AtRest.letters_extend (hr : r.AtRest)
    (hl : Listens (mailboxOf r.steps) S r.session.books p) {steps : List Step}
    (hkept : ∀ st ∈ steps, st ≠ .messages S .cancel ∧ st ≠ .messages S .abandon)
    (hone : (r.extend steps).session.messages.lastId ≤ S) :
    ∃ p', Listens (mailboxOf (r.extend steps).steps) S (r.extend steps).session.books p' ∧
      r.letters S steps ++ p'.line = p.line ++ (r.chronicle steps).map (·.message) := by
  induction steps generalizing r p with
  | nil => exact ⟨p, hl, (List.append_nil _).symm⟩
  | cons st steps ih =>
    obtain ⟨hcancel, habandon⟩ := hkept st (List.mem_cons_self ..)
    have hnext : (r.next st).session.messages.lastId ≤ S :=
      ((hr.next st).lastId_le steps).trans hone
    obtain ⟨p₁, hl₁, hline₁⟩ := hr.letters_next hl hcancel habandon hnext
    obtain ⟨p', hl', hline⟩ := ih (hr.next st) hl₁ (fun st' h => hkept st' (List.mem_cons_of_mem _ h))
      hone
    refine ⟨p', hl', ?_⟩
    rw [letters, chronicle, List.append_assoc, hline, List.map_append, ← List.append_assoc, hline₁,
      List.append_assoc]

theorem Run.AtRest.listens_of_subscribe (hr : r.AtRest) {n : Nat}
    (hh : r.session.hasHandle = true) (hpol : r.session.messages.policy = .reliable)
    (ho : r.session.messages.owned = true)
    (hopen : r.session.released = false → r.session.messages.closed = false)
    (hnone : r.session.messages.lastId = 0) (box : Nat → Option SubscriptionId) :
    Listens box 1 (r.next (.subscribeMessages n)).session.books (.new n) := by
  have hg : r.session.messages.Good := hr.valid.accounted.good
  have hclosed := hopen (hr.valid.not_released_of_handle hh)
  have hempty : r.session.messages.pipelines = [] := by
    refine List.eq_nil_iff_forall_not_mem.mpr fun e he => ?_
    obtain ⟨hfirst, hlast⟩ := hg.sound.named e he
    rw [hnone] at hlast
    exact absurd (hfirst.trans hlast) (by decide)
  have hlone := Hub.lone_of_subscribe hg hpol ho hclosed hempty n
  rw [hnone] at hlone
  have hmessages := r.messages_subscribe hh n
  refine ⟨?_, nofun, fun _ => ?_⟩
  · show (r.next (.subscribeMessages n)).session.messages.Lone _ _
    rw [hmessages]
    exact hlone
  · show (r.next (.subscribeMessages n)).session.messages.closed = _
    rw [hmessages]
    exact (Hub.subscribe_owned ho n).1.trans hclosed

/-- Whoever has the only subscription is handed the messages of the transitions that follow. -/
theorem Run.AtRest.letters_of_subscribe (hr : r.AtRest) {n : Nat} (hh : r.session.hasHandle = true)
    (hpol : r.session.messages.policy = .reliable) (ho : r.session.messages.owned = true)
    (hopen : r.session.released = false → r.session.messages.closed = false) {during : List Step}
    (hkept : ∀ st ∈ during, st ≠ .messages 1 .cancel ∧ st ≠ .messages 1 .abandon)
    (hone : ((r.next (.subscribeMessages n)).extend during).session.messages.lastId = 1) :
    let r' := r.next (.subscribeMessages n)
    let s' := (r'.extend during).session
    ∃ p, s'.messages.pipeline? 1 = some p ∧
      r'.letters 1 during ++ p.line = (r'.chronicle during).map (·.message) ∧
      ∀ m rest, p.line = m :: rest →
        s'.messages.isWaiting 1 = false ∧ (s'.tryReceiveMessage 1).2 = .value m := by
  intro r' s'
  have hnext : r'.session.messages.lastId = r.session.messages.lastId + 1 :=
    Run.lastId_subscribe hh (hopen (hr.valid.not_released_of_handle hh)) n
  have hr' : r'.AtRest := hr.next _
  have hzero : r.session.messages.lastId = 0 := by
    have hle : r'.session.messages.lastId ≤ s'.messages.lastId := hr'.lastId_le during
    rw [hnext, hone] at hle
    exact Nat.le_zero.mp (Nat.le_of_succ_le_succ hle)
  have hlistens := hr.listens_of_subscribe (n := n) hh hpol ho hopen hzero (mailboxOf r'.steps)
  obtain ⟨p, hl, hline⟩ := hr'.letters_extend hlistens hkept (Nat.le_of_eq hone)
  have hlone : s'.messages.Lone 1 p := hl.lone
  refine ⟨p, hlone.pipeline?, hline, fun m rest hhead => ?_⟩
  obtain ⟨hfree, hresult⟩ := hlone.tryReceive_result hhead
  refine ⟨?_, hresult⟩
  rw [hlone.isWaiting, hfree]
  rfl

theorem late_disconnect {settings : Settings} {players : List Player} {catalog : List Packet.Entry}
    {steps : List Step} {n : Nat} {fault : Option Fault} {τ : Transition}
    (hτ : τ ∈ chronicle settings players catalog steps) (hcaller : τ.caller = .disconnect n fault) :
    ∃ earlier later, steps = earlier ++ .disconnect :: later ∧ earlier.length = n ∧
      (run settings players catalog earlier).log .disconnect = [τ] ∧ τ.Leaves n fault := by
  obtain ⟨earlier, st, later, rfl, hmem⟩ := Run.exists_of_mem_chronicle hτ
  have hr := run_atRest settings players catalog earlier
  have hmem : τ ∈ (run settings players catalog earlier).log st := hmem
  have hlength : (run settings players catalog earlier).steps.length = earlier.length :=
    congrArg List.length (Run.extend_steps _ earlier)
  rcases hr.kind hmem with ⟨-, x, hkind⟩ | ⟨rfl, fault', hkind⟩ | ⟨x, cause, hkind⟩
  · rw [hkind.1] at hcaller
    cases hcaller
  · obtain ⟨hn, rfl⟩ := LifecycleCall.disconnect.inj (hkind.1.symm.trans hcaller)
    have hh : (run settings players catalog earlier).session.hasHandle = true := by
      by_contra hnone
      rw [Run.log, Step.log, if_neg hnone] at hmem
      cases hmem
    have hlog : (run settings players catalog earlier).log .disconnect = _ := if_pos hh
    refine ⟨earlier, later, rfl, hlength.symm.trans hn, ?_, hn ▸ hkind⟩
    rcases disconnect_news (t := (run settings players catalog earlier).scene) hr.valid hh _ with
      ⟨hnone, -⟩ | ⟨τ', _, hone, -⟩
    · rw [hlog] at hmem
      exact absurd (hnone ▸ hmem) List.not_mem_nil
    · have hlog : (run settings players catalog earlier).log .disconnect = [τ'] := hlog.trans hone
      rw [hlog] at hmem ⊢
      rw [List.mem_singleton.mp hmem]
  · rw [hkind.1] at hcaller
    cases hcaller

end runs

/-- **The messages of a session tell its transitions, each once and in order.** The messages that the
hub is handed are those of the chronicle, where a session that is installed and its end follow each
other by turns. A connect that installs its session adds one, and so does a disconnect that finds one;
its message carries the error that the call returns, at once or when its publish is let in. Any other
step adds one if it ends the installed session, and then the message tells the cause that the handles
of the ended cycle receive. Whoever has the only subscription ever made on a reliable hub, and keeps
it, is handed the messages from then on, in order: those that are still to come are in line, and its
next receive takes the first of them. -/
theorem messages_tell_transitions (settings : Settings) (players : List Player)
    (catalog : List Packet.Entry) (before : List Step) :
    let r := run settings players catalog before
    let s := r.session
    let call := r.steps.length
    let log := chronicle settings players catalog before
    (∀ (i : Nat) (τ : Transition), log[i]? = some τ →
        if i % 2 = 0 then ∃ c x, τ.Joins c x
        else (∃ c fault, τ.Leaves c fault) ∨ ∃ x cause, τ.Ends x cause) ∧
      Posted (.new (settings.hubLabel "msg") settings.messagePolicy) (log.map (·.notice)) s.messages ∧
      s.messages.published = log.length ∧
      (s.hasHandle = true →
        (∀ options, ConnectNews call (s.connect call options).2 (r.log (.connect options))) ∧
        (∀ n options, ∃ logs, r.log (.race n options) = logs.flatten ∧
          List.Forall₂ (ConnectNews call) (s.connectAll call options n).2 logs) ∧
        DisconnectNews call (s.disconnect call).2 (r.log .disconnect)) ∧
      (∀ st : Step, ¬ st.Connects → st ≠ .disconnect →
        (r.log st = [] ∧ ((r.next st).session.released = false →
          (r.next st).session.installed = s.installed)) ∨
        ∃ τ x cause, r.log st = [τ] ∧ τ.Ends x cause ∧ s.installed = some x ∧
          (r.next st).session.installed = none) ∧
      (∀ st, ∀ τ ∈ r.log st, τ.Complete r.handles) ∧
      (∀ (st : Step) n fault,
        .disconnected n fault ∈ (st.act s call r.handles).session.completions →
        ∃ earlier later τ, before ++ [st] = earlier ++ .disconnect :: later ∧ earlier.length = n ∧
          (run settings players catalog earlier).log .disconnect = [τ] ∧ τ.Leaves n fault) ∧
      (∀ n during,
        let r' := r.next (.subscribeMessages n)
        let s' := (r'.extend during).session
        settings.messagePolicy = .reliable → s.hasHandle = true → s'.messages.lastId = 1 →
        (∀ st ∈ during, st ≠ .messages 1 .cancel ∧ st ≠ .messages 1 .abandon) →
        ∃ p, s'.messages.pipeline? 1 = some p ∧
          r'.letters 1 during ++ p.line = (r'.chronicle during).map (·.message) ∧
          ∀ m rest, p.line = m :: rest →
            s'.messages.isWaiting 1 = false ∧ (s'.tryReceiveMessage 1).2 = .value m) := by
  intro r s call log
  have hr : r.AtRest := run_atRest settings players catalog before
  have hnew := run_atRest settings players catalog []
  have hu := run_unspent settings players catalog before
  have hbegun : Told (.new (settings.hubLabel "msg") settings.messagePolicy) []
      (run settings players catalog []).session.books :=
    ⟨.none _, rfl, fun _ => rfl, nofun, rfl, nofun, nofun⟩
  have htold : Told (.new (settings.hubLabel "msg") settings.messagePolicy) log s.books :=
    hnew.told hbegun before
  refine ⟨fun i τ hτ => ?alternate, htold.posted, ?published, fun hh => ?holders,
    fun st hc hd => hr.ends hc hd, fun st τ hτ => (hr.complete hu hτ).1, fun st n fault hmem => ?late,
    fun n during => ?letters⟩
  case alternate =>
    obtain ⟨o, halternates, -⟩ := (hnew.alternating before).turns
    exact halternates.kind hτ
  case published => exact htold.published.trans (Nat.zero_add _)
  case holders =>
    have hconnect : ∀ options, r.log (.connect options) = s.connectLog call options :=
      fun _ => if_pos hh
    have hrace : ∀ n options, r.log (.race n options) = s.connectAllLog call options n :=
      fun _ _ => if_pos hh
    have hdisconnect : r.log .disconnect = s.disconnectLog call := if_pos hh
    refine ⟨fun options => ?_, fun n options => ?_, ?_⟩
    · rw [hconnect]
      exact connect_news (t := r.scene) hr.valid hr.quiet hh call options
    · rw [hrace]
      exact connectAll_news (t := r.scene) hr.valid rfl hr.quiet hh call options n
    · rw [hdisconnect]
      exact disconnect_news (t := r.scene) hr.valid hh call
  case late =>
    -- The books of a step that answers a disconnect show which transition it was.
    have hstep := (hr.deeds st).told (hr.valid.append [st]) htold
    have hreturned : .disconnected n fault ∈ (r.played st).session.returned :=
      List.mem_filter.mpr ⟨hmem, rfl⟩
    obtain ⟨τ, hτ, hcaller⟩ := hstep.results n fault hreturned
    have hchronicle : log ++ r.log st = chronicle settings players catalog (before ++ [st]) := by
      rw [chronicle, Run.chronicle_append, Run.chronicle, Run.chronicle, List.append_nil]
      rfl
    rw [hchronicle] at hτ
    obtain ⟨earlier, later, hsteps, hn, hlog, hkind⟩ := late_disconnect hτ hcaller
    exact ⟨earlier, later, τ, hsteps, hn, hlog, hkind⟩
  case letters =>
    intro r' s' hpol hh hone hkept
    have hpolicy : s.messages.policy = .reliable :=
      (run_steady settings players catalog before).policy.trans hpol
    exact hr.letters_of_subscribe hh hpolicy htold.owned htold.isOpen hkept hone

/-- Two calls are parked while the only subscriber, whose buffer is the smallest, does not receive. -/
theorem messages_tell_transitions_parked :
    let r := (run .standard [] [] []).next (.subscribeMessages 1)
    let five : List Step := [.connect (.forServer "a"), .disconnect, .connect (.forServer "b"),
      .disconnect, .connect (.forServer "c")]
    let during := five ++ [.messages 1 .tryReceive, .messages 1 .drain]
    parkedCalls (r.extend five).session.messages = [.disconnect 4 none, .connect 5 3] ∧
      r.letters 1 during = (r.chronicle during).map (·.message) ∧
      (r.chronicle during).map (·.message) = [.status Message.connectedText,
        .status Message.disconnectedText, .status Message.connectedText,
        .status Message.disconnectedText, .status Message.connectedText] := by
  intro r five during
  obtain ⟨-, -, -, -, -, -, -, hletters⟩ := messages_tell_transitions .standard [] [] []
  obtain ⟨p, hp, hline, -⟩ := hletters 1 during rfl rfl (by decide +kernel)
    (by simp [during, five])
  have hempty : ((r.extend during).session.messages.pipeline? 1).map (·.line) = some [] := by
    decide +kernel
  have hnone : p.line = [] := by
    have hp' : (r.extend during).session.messages.pipeline? 1 = some p := hp
    rw [hp'] at hempty
    exact Option.some.inj hempty
  rw [hnone, List.append_nil] at hline
  exact ⟨by decide +kernel, hline, by decide +kernel⟩

end Switchboard.Session
