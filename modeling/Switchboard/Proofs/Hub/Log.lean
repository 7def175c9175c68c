import Mathlib.Data.List.Basic
import Switchboard.Hub.Basic

/-!
# What a bystander of a hub notes

The events of an operation are computed beside it, by functions of the same recursion
(`visitLog` beside `visit`, and so on). They record which buffers took which values, what the
holders were given, and which publishes were called and returned.

**Views.** What is said about a run is said through views of its log: the values that the buffer of
a subscription took (`acceptedBy`), those that its holder received (`takenBy`), the publishes called
and those returned.

**Main statements** (`…_reply`, `readsIn_…`). The log agrees with the replies: it names the same
answered receives, the same returned publishes and the same values received at once, in the same
order.
-/

namespace Switchboard

variable {π ρ α β : Type}

/-- The values that a receive gave its caller. -/
def Reception.values : Reception α → List α
  | .value v => [v]
  | .empty | .ended => []

/-- The values that a receive gave its caller at once. -/
def Outcome.values : Outcome (Option α) → List α
  | .returned v => v.toList
  | .parked => []

namespace Hub

/-- What a bystander of a hub may note. -/
inductive Event (π ρ α : Type) where
  /-- A publish was called. -/
  | called (caller : π)
  /-- The buffer of a subscription took a value of a publish. -/
  | stored (id : SubscriptionId) (caller : π) (value : α)
  /-- The holder of a subscription received a value at once. -/
  | received (id : SubscriptionId) (value : α)
  /-- A receive that waited on a subscription returned. -/
  | answered (id : SubscriptionId) (caller : ρ) (value : Option α)
  /-- A publish returned the number of buffers that took its value. -/
  | returned (caller : π) (accepted : Nat)
  /-- A registered subscription was cancelled. -/
  | cancelled (id : SubscriptionId)
  /-- The holder of a subscription went away. -/
  | abandoned (id : SubscriptionId)
deriving DecidableEq, Repr

/-! ## Views of a log -/

/-- The values that the buffer of a subscription took, each with the publish it came from. -/
def storedIn (id : SubscriptionId) (log : List (Event π ρ α)) : List (π × α) :=
  log.filterMap fun
    | .stored i caller v => if i = id then some (caller, v) else none
    | _ => none

/-- The values that the buffer of a subscription took. -/
def acceptedBy (id : SubscriptionId) (log : List (Event π ρ α)) : List α :=
  (storedIn id log).map (·.2)

/-- The values that the holder of a subscription received. -/
def takenBy (id : SubscriptionId) (log : List (Event π ρ α)) : List α :=
  log.filterMap fun
    | .received i v => if i = id then some v else none
    | .answered i _ v => if i = id then v else none
    | _ => none

/-- The publishes called. -/
def callsIn (log : List (Event π ρ α)) : List π :=
  log.filterMap fun
    | .called caller => some caller
    | _ => none

/-- The publishes returned, with their results. -/
def returnsIn (log : List (Event π ρ α)) : List (π × Nat) :=
  log.filterMap fun
    | .returned caller n => some (caller, n)
    | _ => none

/-- The waiting receives answered. -/
def answersIn (log : List (Event π ρ α)) : List (ρ × Option α) :=
  log.filterMap fun
    | .answered _ caller v => some (caller, v)
    | _ => none

/-- The values that holders received at once. -/
def readsIn (log : List (Event π ρ α)) : List (SubscriptionId × α) :=
  log.filterMap fun
    | .received id v => some (id, v)
    | _ => none

section views

variable (id : SubscriptionId) (log log' : List (Event π ρ α))

@[simp] theorem storedIn_append : storedIn id (log ++ log') = storedIn id log ++ storedIn id log' :=
  List.filterMap_append

@[simp] theorem acceptedBy_append :
    acceptedBy id (log ++ log') = acceptedBy id log ++ acceptedBy id log' := by
  simp [acceptedBy]

@[simp] theorem takenBy_append : takenBy id (log ++ log') = takenBy id log ++ takenBy id log' :=
  List.filterMap_append

@[simp] theorem callsIn_append : callsIn (log ++ log') = callsIn log ++ callsIn log' :=
  List.filterMap_append

@[simp] theorem returnsIn_append : returnsIn (log ++ log') = returnsIn log ++ returnsIn log' :=
  List.filterMap_append

@[simp] theorem answersIn_append : answersIn (log ++ log') = answersIn log ++ answersIn log' :=
  List.filterMap_append

@[simp] theorem readsIn_append : readsIn (log ++ log') = readsIn log ++ readsIn log' :=
  List.filterMap_append

end views

/-! ## The log of an operation -/

/-- The receives answered on one subscription. -/
def answers (id : SubscriptionId) (received : List (ρ × Option α)) : List (Event π ρ α) :=
  received.map fun r => .answered id r.1 r.2

/-- The events of `offer`. -/
def offerLog (h : Hub π ρ α) (id : SubscriptionId) (publication : Publication π α) :
    List (Event π ρ α) :=
  match h.offer id publication with
  | (_, .stored, received) =>
    .stored id publication.caller publication.value :: answers id received
  | (_, .refused, _) | (_, .parked, _) => []

/-- The events of `visit`. -/
def visitLog (publication : Publication π α) :
    List SubscriptionId → Progress π ρ α → List (Event π ρ α)
  | [], _ => []
  | id :: ahead, r =>
    let traveller := { publication with ahead, accepted := r.accepted }
    r.hub.offerLog id traveller ++
      match r.hub.offer id traveller with
      | (hub, .stored, received) =>
        visitLog publication ahead ⟨hub, r.accepted + 1, false, r.received ++ received⟩
      | (hub, .refused, _) => visitLog publication ahead { r with hub }
      | (_, .parked, _) => []

/-- The events of `publishEach`. -/
def publishEachLog (caller : π) (order : List SubscriptionId) :
    List α → Progress π ρ α → List (Event π ρ α)
  | [], r => [.returned caller r.accepted]
  | value :: later, r =>
    if r.hub.closed then publishEachLog caller order later r
    else
      let hub := { r.hub with published := r.hub.published + 1 }
      let r' := visit ⟨caller, order, value, [], 0, later⟩ (hub.targets order) { r with hub }
      visitLog ⟨caller, order, value, [], 0, later⟩ (hub.targets order) { r with hub } ++
        if r'.parked then [] else publishEachLog caller order later r'

/-- The events of `publishAll`. -/
def publishAllLog (h : Hub π ρ α) (caller : π) (order : List SubscriptionId) (values : List α) :
    List (Event π ρ α) :=
  .called caller :: publishEachLog caller order values ⟨h, 0, false, []⟩

/-- The events of `resume`. -/
def resumeLog (h : Hub π ρ α) (publication : Publication π α) (stored : Bool) :
    List (Event π ρ α) :=
  let start : Progress π ρ α := ⟨h, publication.accepted + (if stored then 1 else 0), false, []⟩
  let r := visit publication publication.ahead start
  visitLog publication publication.ahead start ++
    if r.parked then [] else publishEachLog publication.caller publication.order publication.later r

/-- The events of `resumeAll`. -/
def resumeAllLog (stored : Bool) : List (Publication π α) → Hub π ρ α → List (Event π ρ α)
  | [], _ => []
  | publication :: rest, h =>
    h.resumeLog publication stored ++ resumeAllLog stored rest (h.resume publication stored).hub

/-- The receives answered by shutting pipelines. -/
def retireAllLog (pipelines : List (SubscriptionId × Pipeline (Publication π α) ρ α)) :
    List (Event π ρ α) :=
  pipelines.flatMap fun e => if e.2.isOpen then answers e.1 e.2.retire.2.1 else []

/-- The events of `close`. -/
def closeLog (h : Hub π ρ α) : List (Event π ρ α) :=
  if h.closed then []
  else
    let (pipelines, _, publications) := retireAll h.pipelines
    retireAllLog h.pipelines ++ resumeAllLog false publications { h with pipelines, closed := true }

/-- The events of `settle`. -/
def settleLog (h : Hub π ρ α) : List (Event π ρ α) :=
  if h.owned || !h.parkedPublications.isEmpty then [] else h.closeLog

/-- The events of `disown`. -/
def disownLog (h : Hub π ρ α) : List (Event π ρ α) := settleLog { h with owned := false }

/-- The events of `cancel`. -/
def cancelLog (h : Hub π ρ α) (id : SubscriptionId) : List (Event π ρ α) :=
  match h.pipeline? id with
  | none => []
  | some p =>
    if p.isOpen then
      let (p', received, publications) := p.cancel
      let reply : Reply π ρ α Unit :=
        resumeAll false publications ⟨h.setPipeline id p', (), received, []⟩
      .cancelled id :: answers id received ++
        resumeAllLog false publications (h.setPipeline id p') ++ reply.hub.settleLog
    else []

/-- The events of `abandon`. -/
def abandonLog (h : Hub π ρ α) (id : SubscriptionId) : List (Event π ρ α) :=
  h.cancelLog id ++ [.abandoned id]

/-- What a holder got without waiting, and the publish let in behind it. -/
def readLog (id : SubscriptionId) (reception : Reception α)
    (publication : Option (Publication π α)) : List (Event π ρ α) :=
  (match reception with
    | .value v => [.received id v]
    | .empty | .ended => []) ++
    publication.toList.map fun q => .stored id q.caller q.value

/-- The events of `tryReceive` and of `receive`. -/
def tryReceiveLog (h : Hub π ρ α) (id : SubscriptionId) : List (Event π ρ α) :=
  match h.pipeline? id with
  | none => []
  | some p =>
    let (p', reception, publication) := p.tryReceive
    let reply : Reply π ρ α (Reception α) :=
      resumeAll true publication.toList ⟨h.setPipeline id p', reception, [], []⟩
    readLog id reception publication ++
      resumeAllLog true publication.toList (h.setPipeline id p') ++ reply.hub.settleLog

/-- The events of `drainUpTo`. -/
def drainUpToLog (id : SubscriptionId) : (fuel : Nat) → Hub π ρ α → List (Event π ρ α)
  | 0, _ => []
  | fuel + 1, h =>
    h.tryReceiveLog id ++
      match (h.tryReceive id).result with
      | .value _ => drainUpToLog id fuel (h.tryReceive id).hub
      | .empty | .ended => []

/-- The events of `drain`. -/
def drainLog (h : Hub π ρ α) (id : SubscriptionId) : List (Event π ρ α) :=
  drainUpToLog id (h.backlog id + 1) h

/-! ## The log and the replies -/

@[simp] theorem answersIn_answers (id : SubscriptionId) (received : List (ρ × Option α)) :
    answersIn (answers id received : List (Event π ρ α)) = received := by
  simp [answersIn, answers, List.filterMap_map]

@[simp] theorem returnsIn_answers (id : SubscriptionId) (received : List (ρ × Option α)) :
    returnsIn (answers id received : List (Event π ρ α)) = [] := by
  simp [returnsIn, answers, List.filterMap_map]

@[simp] theorem answersIn_readLog (id : SubscriptionId) (reception : Reception α)
    (publication : Option (Publication π α)) :
    answersIn (readLog id reception publication : List (Event π ρ α)) = [] := by
  cases reception <;> cases publication <;> rfl

@[simp] theorem returnsIn_readLog (id : SubscriptionId) (reception : Reception α)
    (publication : Option (Publication π α)) :
    returnsIn (readLog id reception publication : List (Event π ρ α)) = [] := by
  cases reception <;> cases publication <;> rfl

@[simp] theorem readsIn_answers (id : SubscriptionId) (received : List (ρ × Option α)) :
    readsIn (answers id received : List (Event π ρ α)) = [] := by
  simp [readsIn, answers, List.filterMap_map]

theorem visit_received (q : Publication π α) (ids : List SubscriptionId) (r : Progress π ρ α) :
    (visit q ids r).received = r.received ++ answersIn (visitLog q ids r) := by
  induction ids generalizing r with
  | nil => simp [visit, visitLog, answersIn]
  | cons id ahead ih =>
    simp only [visit, visitLog, offerLog]
    rcases r.hub.offer id { q with ahead, accepted := r.accepted } with ⟨hub, _ | _ | _, received⟩
    · have hlog : answersIn (.stored id q.caller q.value :: answers id received :
          List (Event π ρ α)) = received := answersIn_answers id received
      rw [ih, answersIn_append, hlog, List.append_assoc]
    · simp only [ih, List.nil_append]
    · simp [answersIn]

@[simp] theorem returnsIn_visitLog (q : Publication π α) (ids : List SubscriptionId)
    (r : Progress π ρ α) : returnsIn (visitLog q ids r) = [] := by
  induction ids generalizing r with
  | nil => rfl
  | cons id ahead ih =>
    simp only [visitLog, offerLog]
    rcases r.hub.offer id { q with ahead, accepted := r.accepted } with ⟨hub, _ | _ | _, received⟩
    · rw [returnsIn_append, ih, List.append_nil]
      exact returnsIn_answers id received
    · exact ih _
    · rfl

theorem publishEach_received (caller : π) (order : List SubscriptionId) (values : List α)
    (r : Progress π ρ α) :
    (publishEach caller order values r).received =
      r.received ++ answersIn (publishEachLog caller order values r) := by
  induction values generalizing r with
  | nil => simp [publishEach, publishEachLog, answersIn]
  | cons v later ih =>
    unfold publishEach publishEachLog
    split
    · exact ih r
    · simp only [answersIn_append]
      split
      · simp [visit_received, answersIn]
      · rw [ih, visit_received, List.append_assoc]

theorem returnsIn_publishEachLog (caller : π) (order : List SubscriptionId) (values : List α)
    (r : Progress π ρ α) (hr : r.parked = false) :
    returnsIn (publishEachLog caller order values r) =
      if (publishEach caller order values r).parked then []
      else [(caller, (publishEach caller order values r).accepted)] := by
  induction values generalizing r with
  | nil => simp [publishEach, publishEachLog, returnsIn, hr]
  | cons v later ih =>
    unfold publishEach publishEachLog
    split
    · exact ih r hr
    · simp only [returnsIn_append, returnsIn_visitLog, List.nil_append]
      split
      · rfl
      · rename_i hpark
        exact ih _ (by simpa using hpark)

theorem resume_received (h : Hub π ρ α) (q : Publication π α) (stored : Bool) :
    (h.resume q stored).received = answersIn (h.resumeLog q stored) := by
  simp only [resume, resumeLog, answersIn_append]
  set start : Progress π ρ α := ⟨h, q.accepted + (if stored then 1 else 0), false, []⟩
  by_cases hpark : (visit q q.ahead start).parked = true
  · rw [if_pos hpark, if_pos hpark, visit_received]
    exact (List.append_nil _).symm
  · rw [if_neg hpark, if_neg hpark, publishEach_received, visit_received]
    rfl

theorem returnsIn_resumeLog (h : Hub π ρ α) (q : Publication π α) (stored : Bool) :
    returnsIn (h.resumeLog q stored) =
      if (h.resume q stored).parked then [] else [(q.caller, (h.resume q stored).accepted)] := by
  set start : Progress π ρ α := ⟨h, q.accepted + (if stored then 1 else 0), false, []⟩
  rw [resumeLog, returnsIn_append, returnsIn_visitLog, List.nil_append]
  by_cases hpark : (visit q q.ahead start).parked = true
  · have hres : h.resume q stored = visit q q.ahead start := if_pos hpark
    rw [hres, if_pos hpark, if_pos hpark]
    rfl
  · have hres : h.resume q stored = publishEach q.caller q.order q.later (visit q q.ahead start) :=
      if_neg hpark
    rw [hres, if_neg hpark]
    exact returnsIn_publishEachLog _ _ _ _ (by simpa using hpark)

/-- What publishes that go on add to a reply. -/
theorem resumeAll_reply (stored : Bool) (qs : List (Publication π α)) (reply : Reply π ρ α β) :
    (resumeAll stored qs reply).result = reply.result ∧
      (resumeAll stored qs reply).received =
        reply.received ++ answersIn (resumeAllLog stored qs reply.hub) ∧
      (resumeAll stored qs reply).returned =
        reply.returned ++ returnsIn (resumeAllLog stored qs reply.hub) := by
  induction qs generalizing reply with
  | nil => simp [resumeAll, resumeAllLog, answersIn, returnsIn]
  | cons q rest ih =>
    obtain ⟨h1, h2, h3⟩ := ih
      { reply with
        hub := (reply.hub.resume q stored).hub
        received := reply.received ++ (reply.hub.resume q stored).received
        returned := reply.returned ++ if (reply.hub.resume q stored).parked then []
          else [(q.caller, (reply.hub.resume q stored).accepted)] }
    refine ⟨h1, ?_, ?_⟩
    · rw [resumeAll, h2, resumeAllLog, answersIn_append, resume_received, List.append_assoc]
    · rw [resumeAll, h3, resumeAllLog, returnsIn_append, returnsIn_resumeLog, List.append_assoc]

/-- Shutting treats each pipeline on its own. -/
theorem retireAll_eq (pipelines : List (SubscriptionId × Pipeline (Publication π α) ρ α)) :
    retireAll pipelines =
      (pipelines.map fun e => if e.2.isOpen then (e.1, e.2.retire.1) else e,
        pipelines.flatMap fun e => if e.2.isOpen then e.2.retire.2.1 else [],
        pipelines.flatMap fun e => if e.2.isOpen then e.2.retire.2.2 else []) := by
  induction pipelines with
  | nil => rfl
  | cons e rest ih =>
    rw [retireAll, ih, List.map_cons, List.flatMap_cons, List.flatMap_cons]
    by_cases hopen : e.2.isOpen = true
    · simp only [hopen, if_true]
    · simp only [hopen, if_false, Bool.false_eq_true, List.nil_append]

theorem retireAll_received (pipelines : List (SubscriptionId × Pipeline (Publication π α) ρ α)) :
    (retireAll pipelines).2.1 = answersIn (retireAllLog pipelines : List (Event π ρ α)) := by
  rw [retireAll_eq, retireAllLog, answersIn, List.filterMap_flatMap]
  refine List.flatMap_congr fun e _ => ?_
  split
  · exact (answersIn_answers e.1 e.2.retire.2.1).symm
  · rfl

@[simp] theorem returnsIn_retireAllLog
    (pipelines : List (SubscriptionId × Pipeline (Publication π α) ρ α)) :
    returnsIn (retireAllLog pipelines : List (Event π ρ α)) = [] := by
  rw [retireAllLog, returnsIn, List.filterMap_flatMap, List.flatMap_eq_nil_iff]
  intro e _
  split
  · exact returnsIn_answers e.1 e.2.retire.2.1
  · rfl

/-- What closing releases. -/
theorem close_reply (h : Hub π ρ α) :
    h.close.received = answersIn h.closeLog ∧ h.close.returned = returnsIn h.closeLog := by
  unfold close closeLog
  split
  · exact ⟨rfl, rfl⟩
  · rw [answersIn_append, returnsIn_append, ← retireAll_received, returnsIn_retireAllLog]
    exact (resumeAll_reply false _ _).2

/-- What settling adds to a reply. -/
theorem settle_reply (reply : Reply π ρ α β) :
    (settle reply).result = reply.result ∧
      (settle reply).received = reply.received ++ answersIn reply.hub.settleLog ∧
      (settle reply).returned = reply.returned ++ returnsIn reply.hub.settleLog := by
  unfold settle settleLog
  split
  · simp [answersIn, returnsIn]
  · exact ⟨rfl, congrArg _ (close_reply _).1, congrArg _ (close_reply _).2⟩

theorem disown_reply (h : Hub π ρ α) :
    h.disown.received = answersIn h.disownLog ∧ h.disown.returned = returnsIn h.disownLog :=
  (settle_reply _).2

/-- What cancelling releases. -/
theorem cancel_reply (h : Hub π ρ α) (id : SubscriptionId) :
    (h.cancel id).received = answersIn (h.cancelLog id) ∧
      (h.cancel id).returned = returnsIn (h.cancelLog id) := by
  cases hp : h.pipeline? id with
  | none => simp [cancel, cancelLog, hp, answersIn, returnsIn]
  | some p =>
    by_cases hopen : p.isOpen = true
    · simp only [cancel, cancelLog, hp, hopen, if_true]
      obtain ⟨-, h1, h2⟩ := resumeAll_reply false p.cancel.2.2
        (⟨h.setPipeline id p.cancel.1, (), p.cancel.2.1, []⟩ : Reply π ρ α Unit)
      obtain ⟨-, h3, h4⟩ := settle_reply (resumeAll false p.cancel.2.2
        (⟨h.setPipeline id p.cancel.1, (), p.cancel.2.1, []⟩ : Reply π ρ α Unit))
      have hans : answersIn (.cancelled id :: answers id p.cancel.2.1 : List (Event π ρ α)) =
          p.cancel.2.1 := answersIn_answers id _
      have hret : returnsIn (.cancelled id :: answers id p.cancel.2.1 : List (Event π ρ α)) = [] :=
        returnsIn_answers id _
      rw [h3, h4, h1, h2]
      simp only [answersIn_append, returnsIn_append, hans, hret, and_self]
    · simp [cancel, cancelLog, hp, hopen, answersIn, returnsIn]

/-- What a holder who goes away releases. -/
theorem abandon_reply (h : Hub π ρ α) (id : SubscriptionId) :
    (h.abandon id).received = answersIn (h.abandonLog id) ∧
      (h.abandon id).returned = returnsIn (h.abandonLog id) := by
  rw [abandonLog, answersIn_append, returnsIn_append, ← (h.cancel_reply id).1,
    ← (h.cancel_reply id).2]
  exact ⟨(List.append_nil _).symm, (List.append_nil _).symm⟩

/-- What a receive releases. -/
theorem tryReceive_reply (h : Hub π ρ α) (id : SubscriptionId) :
    (h.tryReceive id).received = answersIn (h.tryReceiveLog id) ∧
      (h.tryReceive id).returned = returnsIn (h.tryReceiveLog id) := by
  cases hp : h.pipeline? id with
  | none => simp [tryReceive, tryReceiveLog, hp, answersIn, returnsIn]
  | some p =>
    simp only [tryReceive, tryReceiveLog, hp]
    obtain ⟨-, h1, h2⟩ := resumeAll_reply true p.tryReceive.2.2.toList
      (⟨h.setPipeline id p.tryReceive.1, p.tryReceive.2.1, [], []⟩ : Reply π ρ α (Reception α))
    obtain ⟨-, h3, h4⟩ := settle_reply (resumeAll true p.tryReceive.2.2.toList
      (⟨h.setPipeline id p.tryReceive.1, p.tryReceive.2.1, [], []⟩ : Reply π ρ α (Reception α)))
    rw [h3, h4, h1, h2]
    simp only [answersIn_append, returnsIn_append, answersIn_readLog, returnsIn_readLog, and_self]

/-- A receive that waits gives the values of one that does not, and releases the same calls. -/
theorem receive_reply (h : Hub π ρ α) (id : SubscriptionId) (caller : ρ) :
    (h.receive id caller).result.values = (h.tryReceive id).result.values ∧
      (h.receive id caller).received = (h.tryReceive id).received ∧
      (h.receive id caller).returned = (h.tryReceive id).returned := by
  simp only [receive]
  cases (h.tryReceive id).result with
  | value v => exact ⟨rfl, rfl, rfl⟩
  | empty => cases (h.tryReceive id).hub.pipeline? id <;> exact ⟨rfl, rfl, rfl⟩
  | ended => exact ⟨rfl, rfl, rfl⟩

theorem drainUpTo_reply (id : SubscriptionId) (fuel : Nat) (acc : List α)
    (reply : Reply π ρ α Unit) :
    (drainUpTo id fuel acc reply).received =
        reply.received ++ answersIn (drainUpToLog id fuel reply.hub) ∧
      (drainUpTo id fuel acc reply).returned =
        reply.returned ++ returnsIn (drainUpToLog id fuel reply.hub) := by
  induction fuel generalizing acc reply with
  | zero => simp [drainUpTo, drainUpToLog, answersIn, returnsIn]
  | succ fuel ih =>
    obtain ⟨hr, ht⟩ := reply.hub.tryReceive_reply id
    simp only [drainUpTo, drainUpToLog, answersIn_append, returnsIn_append, ← hr, ← ht]
    cases (reply.hub.tryReceive id).result with
    | value v =>
      obtain ⟨h1, h2⟩ := ih (v :: acc) ⟨(reply.hub.tryReceive id).hub, (),
        reply.received ++ (reply.hub.tryReceive id).received,
        reply.returned ++ (reply.hub.tryReceive id).returned⟩
      simp only [h1, h2, List.append_assoc, and_self]
    | empty => simp [answersIn, returnsIn]
    | ended => simp [answersIn, returnsIn]

theorem drain_reply (h : Hub π ρ α) (id : SubscriptionId) :
    (h.drain id).received = answersIn (h.drainLog id) ∧
      (h.drain id).returned = returnsIn (h.drainLog id) :=
  drainUpTo_reply id _ [] _

theorem publishAll_received (h : Hub π ρ α) (caller : π) (order : List SubscriptionId)
    (values : List α) :
    (h.publishAll caller order values).received =
      answersIn (h.publishAllLog caller order values) :=
  publishEach_received caller order values _

/-- A publish that is not parked returns with the result that its log names. -/
theorem returnsIn_publishAllLog (h : Hub π ρ α) (caller : π) (order : List SubscriptionId)
    (values : List α) :
    returnsIn (h.publishAllLog caller order values) =
      match (h.publishAll caller order values).result with
      | .parked => []
      | .returned n => [(caller, n)] := by
  have hlog := returnsIn_publishEachLog caller order values ⟨h, 0, false, []⟩ rfl
  simp only [publishAll]
  by_cases hp : (publishEach caller order values ⟨h, 0, false, []⟩).parked = true
  · rw [if_pos hp] at hlog
    rw [if_pos hp]
    exact hlog
  · rw [if_neg hp] at hlog
    rw [if_neg hp]
    exact hlog

/-! ## Values received at once -/

@[simp] theorem readsIn_visitLog (q : Publication π α) (ids : List SubscriptionId) (r : Progress π ρ α) :
    readsIn (visitLog q ids r) = [] := by
  induction ids generalizing r with
  | nil => rfl
  | cons id ahead ih =>
    simp only [visitLog, offerLog]
    rcases r.hub.offer id { q with ahead, accepted := r.accepted } with ⟨hub, _ | _ | _, received⟩
    · rw [readsIn_append, ih, List.append_nil]
      exact readsIn_answers id received
    · exact ih _
    · rfl

@[simp] theorem readsIn_publishEachLog (caller : π) (order : List SubscriptionId) (values : List α)
    (r : Progress π ρ α) : readsIn (publishEachLog caller order values r) = [] := by
  induction values generalizing r with
  | nil => rfl
  | cons v later ih =>
    unfold publishEachLog
    split
    · exact ih r
    · rw [readsIn_append, readsIn_visitLog, List.nil_append]
      split
      · rfl
      · exact ih _

@[simp] theorem readsIn_resumeAllLog (stored : Bool) (qs : List (Publication π α)) (h : Hub π ρ α) :
    readsIn (resumeAllLog stored qs h) = [] := by
  induction qs generalizing h with
  | nil => rfl
  | cons q rest ih =>
    set start : Progress π ρ α := ⟨h, q.accepted + (if stored then 1 else 0), false, []⟩
    rw [resumeAllLog, resumeLog, readsIn_append, readsIn_append, readsIn_visitLog, ih,
      List.append_nil, List.nil_append]
    by_cases hpark : (visit q q.ahead start).parked = true
    · rw [if_pos hpark]
      rfl
    · rw [if_neg hpark]
      exact readsIn_publishEachLog _ _ _ _

@[simp] theorem readsIn_closeLog (h : Hub π ρ α) : readsIn h.closeLog = [] := by
  unfold closeLog
  split
  · rfl
  · rw [readsIn_append, readsIn_resumeAllLog, List.append_nil, retireAllLog, readsIn,
      List.filterMap_flatMap, List.flatMap_eq_nil_iff]
    intro e _
    split
    · exact readsIn_answers e.1 e.2.retire.2.1
    · rfl

@[simp] theorem readsIn_settleLog (h : Hub π ρ α) : readsIn h.settleLog = [] := by
  unfold settleLog
  split
  · rfl
  · exact readsIn_closeLog h

@[simp] theorem readsIn_publishAllLog (h : Hub π ρ α) (caller : π) (order : List SubscriptionId)
    (values : List α) : readsIn (h.publishAllLog caller order values) = [] :=
  readsIn_publishEachLog caller order values _

@[simp] theorem readsIn_cancelLog (h : Hub π ρ α) (id : SubscriptionId) :
    readsIn (h.cancelLog id) = [] := by
  cases hp : h.pipeline? id with
  | none => simp only [cancelLog, hp, readsIn, List.filterMap_nil]
  | some p =>
    simp only [cancelLog, hp]
    split
    · rw [readsIn_append, readsIn_append, readsIn_resumeAllLog, readsIn_settleLog, List.append_nil,
        List.append_nil]
      exact readsIn_answers id p.cancel.2.1
    · rfl

/-- A receive logs the value that it comes to, and no other. -/
theorem readsIn_tryReceiveLog (h : Hub π ρ α) (id : SubscriptionId) :
    readsIn (h.tryReceiveLog id) = (h.tryReceive id).result.values.map (id, ·) := by
  cases hp : h.pipeline? id with
  | none =>
    simp only [tryReceive, tryReceiveLog, hp]
    rfl
  | some p =>
    simp only [tryReceive, tryReceiveLog, hp, readsIn_append, readsIn_resumeAllLog,
      readsIn_settleLog, List.append_nil, (settle_reply _).1, (resumeAll_reply true _ _).1]
    rcases p.tryReceive with ⟨p', _ | _ | _, _ | q⟩ <;> rfl

/-- Draining logs the values that it comes to, and no other. -/
theorem drainUpTo_reads (id : SubscriptionId) (fuel : Nat) (acc : List α)
    (reply : Reply π ρ α Unit) :
    (drainUpTo id fuel acc reply).result.values.map (id, ·) =
      acc.reverse.map (id, ·) ++ readsIn (drainUpToLog id fuel reply.hub) := by
  induction fuel generalizing acc reply with
  | zero => simp [drainUpTo, drainUpToLog, readsIn]
  | succ fuel ih =>
    simp only [drainUpTo, drainUpToLog, readsIn_append, readsIn_tryReceiveLog]
    cases (reply.hub.tryReceive id).result with
    | value v =>
      have := ih (v :: acc) ⟨(reply.hub.tryReceive id).hub, (),
        reply.received ++ (reply.hub.tryReceive id).received,
        reply.returned ++ (reply.hub.tryReceive id).returned⟩
      rw [List.reverse_cons, List.map_append, List.append_assoc] at this
      exact this
    | empty => simp [readsIn, Reception.values]
    | ended => simp [readsIn, Reception.values]

theorem readsIn_drainLog (h : Hub π ρ α) (id : SubscriptionId) :
    readsIn (h.drainLog id) = (h.drain id).result.values.map (id, ·) :=
  (drainUpTo_reads id _ [] ⟨h, (), [], []⟩).symm

end Hub

end Switchboard
