import Switchboard.Proofs.Session.Chronicle

/-!
# The books of a session

The ledger, the counters of the connector, the installed session, the message hub and the calls that
have returned: what is needed to account for a session, without its cycles and its observers.

**Entries** (`Books.install`, `Books.leave`, ...). What happens to a session is an entry in its
books, which can be said without the state. The readers of causes make none (`books_readCauses`).
-/

namespace Switchboard

/-- What a lifecycle call that was parked comes to. -/
def LifecycleCall.completion : LifecycleCall → Option Completion
  | connect call x => some (.connected call x)
  | disconnect call fault => some (.disconnected call fault)
  | termination _ => none

namespace Session

/-- The parked calls that have returned, apart from the receives of causes. -/
def returned (s : Session) : List Completion := s.completions.filter fun c => (causeOf c).isNone

/-- What is kept of a session to account for it. -/
structure Books where
  ledger : Ledger
  establishCalls : Nat
  tornDown : List Serial
  installed : Option Serial
  messages : Hub LifecycleCall Nat Message
  released : Bool
  /-- The number of the current cycle. -/
  number : Nat
  /-- The numbers of the earlier cycles, latest first. -/
  earlier : List Nat
  returned : List Completion

def books (s : Session) : Books where
  ledger := s.ledger
  establishCalls := s.connector.establishCalls
  tornDown := s.connector.tornDown
  installed := s.installed
  messages := s.messages
  released := s.released
  number := s.cycle.number
  earlier := s.past.map (·.number)
  returned := s.returned

namespace Books

/-- After the establish of a connection, which may fail. -/
def dial (b : Books) : Books := { b with establishCalls := b.establishCalls + 1 }

/-- After the teardown of a connection. -/
def tear (b : Books) (x : Serial) (fault : Option Fault) : Books :=
  { b with ledger := b.ledger.teardown fault, tornDown := x :: b.tornDown }

/-- After the turn of a cycle, with another session installed or none. -/
def turn (b : Books) (installed : Option Serial) : Books :=
  { b with installed, number := b.number + 1, earlier := b.number :: b.earlier }

/-- After a session was installed. -/
def install (b : Books) (x : Serial) : Books :=
  { b.turn (some x) with ledger := b.ledger.connect }

/-- After the installed session was taken away for a cause. -/
def leave (b : Books) (x : Serial) (fault : Option Fault) (cause : Cause) : Books :=
  let b := (b.turn none).tear x fault
  { b with ledger := b.ledger.disconnect cause }

/-- After some receives of messages have returned. -/
def read (b : Books) (received : List (Nat × Option Message)) : Books :=
  { b with returned := b.returned ++ received.map fun r => .message r.1 r.2 }

/-- After the message of a lifecycle call was published. -/
def announce (b : Books) (who : LifecycleCall) (m : Message) : Books :=
  let reply := b.messages.publish who m
  { b.read reply.received with
    messages := reply.hub
    ledger := match reply.result with
      | .returned _ => b.ledger.message
      | .parked => b.ledger }

/-- After work on the message hub. -/
def passOn (b : Books) (hub : Hub LifecycleCall Nat Message)
    (received : List (Nat × Option Message)) (returned : List (LifecycleCall × Nat)) : Books :=
  let b := { b.read received with messages := hub }
  { b with
    ledger := { b.ledger with messages := b.ledger.messages + returned.length }
    returned := b.returned ++ returned.filterMap (·.1.completion) }

/-- After the last holder let go. -/
def release (b : Books) : Books :=
  let b := match b.installed with
    | none => b
    | some x =>
      { b with
        ledger := b.ledger.disconnect .cancelled, tornDown := x :: b.tornDown, installed := none }
  { b.read b.messages.close.received with messages := b.messages.close.hub, released := true }

end Books

section books

variable (s : Session)

theorem books_complete_cause (call : Nat) (cause : Option Cause) :
    (s.complete (.cause call cause)).books = s.books := by
  have hreturned : (s.complete (.cause call cause)).returned = s.returned := by
    rw [returned, complete, List.filter_append]
    exact List.append_nil _
  exact congrArg (fun l => { s.books with returned := l }) hreturned

theorem books_setCycle (c : Cycle) : (s.setCycle c).books = s.books := by
  unfold setCycle
  split
  · rename_i hn
    exact congrArg (fun n => { s.books with number := n }) hn.symm
  · refine congrArg (fun l => { s.books with earlier := l }) ?_
    rw [List.map_map]
    refine List.map_congr_left fun d _ => ?_
    rw [Function.comp_apply]
    split
    · rename_i hd
      exact hd.symm
    · rfl

theorem books_leaveCycle (number : Nat) (id : SubscriptionId) :
    (s.leaveCycle number id).books = s.books := by
  unfold leaveCycle
  split
  · rfl
  · exact books_setCycle s _

theorem books_observe (name : String) (cause : Option Cause) :
    (s.observe name cause).books = s.books := by
  cases hfind : s.observer? name with
  | none => rw [observe, hfind]
  | some o =>
    have hleave : (s.unsubscribed o).books = s.books := by
      unfold unsubscribed
      split
      · exact books_leaveCycle s _ _
      · rfl
    rw [observe_of_some hfind]
    split <;> exact hleave

theorem books_readCauses (received : List (CauseReader × Option Cause)) :
    (s.readCauses received).books = s.books := by
  induction received generalizing s with
  | nil => rfl
  | cons r rest ih =>
    refine (ih _).trans ?_
    obtain ⟨call | name, cause⟩ := r
    · exact books_complete_cause s call cause
    · exact books_observe s name cause

theorem books_turnCycle (cause : Option Cause) (active : Option Active) :
    (s.turnCycle cause active).books = s.books.turn (active.map (·.session)) := by
  have hended : (endCycle s.cycle cause).1.number = s.cycle.number := by
    cases cause <;> rfl
  refine (books_readCauses _ _).trans ?_
  exact congrArg (fun n => { s.books.turn (active.map (·.session)) with
    earlier := n :: s.books.earlier }) hended

theorem returned_complete {c : Completion} (hc : causeOf c = none) :
    (s.complete c).returned = s.returned ++ [c] := by
  rw [returned, complete, List.filter_append, List.filter_cons, hc]
  rfl

theorem books_readMessages (received : List (Nat × Option Message)) :
    (s.readMessages received).books = s.books.read received := by
  induction received generalizing s with
  | nil => exact congrArg (fun l => { s.books with returned := l }) (List.append_nil _).symm
  | cons r rest ih =>
    refine (ih _).trans (congrArg (fun l => { s.books with returned := l }) ?_)
    show (s.complete (.message r.1 r.2)).returned ++ _ = _
    rw [returned_complete s rfl, List.append_assoc]
    rfl

theorem books_published (who : LifecycleCall) :
    (s.published who).books = { s.books with ledger := s.ledger.message } := by
  cases who <;> rfl

theorem books_resumeCall (who : LifecycleCall) :
    (s.resumeCall who).books =
      { s.books with
        ledger := s.ledger.message, returned := s.returned ++ who.completion.toList } := by
  cases who with
  | connect call x =>
    exact congrArg (fun l => { s.books with ledger := s.ledger.message, returned := l })
      (returned_complete (s.published (.connect call x)) (c := .connected call x) rfl)
  | disconnect call fault =>
    exact congrArg (fun l => { s.books with ledger := s.ledger.message, returned := l })
      (returned_complete (s.published (.disconnect call fault)) (c := .disconnected call fault) rfl)
  | termination x =>
    exact congrArg (fun l => { s.books with ledger := s.ledger.message, returned := l })
      (List.append_nil _).symm

theorem books_resumeCalls (returned : List (LifecycleCall × Nat)) :
    (returned.foldl (fun s r => s.resumeCall r.1) s).books =
      { s.books with
        ledger := { s.ledger with messages := s.ledger.messages + returned.length }
        returned := s.returned ++ returned.filterMap (·.1.completion) } := by
  induction returned generalizing s with
  | nil => exact congrArg (fun l => { s.books with returned := l }) (List.append_nil _).symm
  | cons r rest ih =>
    rw [List.foldl_cons, ih]
    have hfirst := books_resumeCall s r.1
    have hledger : (s.resumeCall r.1).ledger = s.ledger.message := congrArg Books.ledger hfirst
    have hreturned : (s.resumeCall r.1).returned = s.returned ++ r.1.completion.toList :=
      congrArg Books.returned hfirst
    rw [hfirst, hledger, hreturned, List.append_assoc, List.length_cons]
    refine congrArg₂ (fun n l => { s.books with
      ledger := { s.ledger with messages := n }, returned := s.returned ++ l }) ?_ ?_
    · show s.ledger.messages + 1 + rest.length = _
      omega
    · rw [List.filterMap_cons]
      cases r.1.completion <;> rfl

theorem books_passOn (hub : Hub LifecycleCall Nat Message)
    (received : List (Nat × Option Message)) (returned : List (LifecycleCall × Nat)) :
    (s.passOn hub received returned).books = s.books.passOn hub received returned := by
  have hread := books_readMessages { s with messages := hub } received
  have hledger := congrArg Books.ledger hread
  have hreturned := congrArg Books.returned hread
  refine (books_resumeCalls _ returned).trans ?_
  rw [hread]
  dsimp only [books] at hledger hreturned
  rw [hledger, hreturned]
  rfl

theorem books_announce (who : LifecycleCall) (m : Message) :
    (s.announce who m).1.books = s.books.announce who m := by
  have hread := books_readMessages { s with messages := (s.messages.publish who m).hub }
    (s.messages.publish who m).received
  unfold announce Books.announce
  dsimp only [books] at hread ⊢
  cases (s.messages.publish who m).result with
  | returned n =>
    refine (books_published _ who).trans ?_
    exact congrArg (fun b : Books => { b with ledger := b.ledger.message }) hread
  | parked => exact hread

theorem books_establish {s : Session} (hok : s.connector.failEstablish = false) :
    s.establish.1.books = s.books.dial := by
  rw [establish_of_ok hok]
  rfl

theorem books_joining {x : Serial} (call : Nat) (hi : s.installed = none) :
    (s.joining call x).session.books = s.books.install x := by
  have hnone : s.isConnected = false := by
    rw [Bool.eq_false_iff]
    exact fun h => isConnected_iff.mp h hi
  have hturn := books_turnCycle s none (some ⟨x, [], .ofCatalog s.connector.catalog⟩)
  rw [joining, install, if_neg (by simp [hnone])]
  exact congrArg (fun b : Books => { b with ledger := b.ledger.connect }) hturn

theorem books_leaving (call : Nat) (x : Serial) :
    (s.leaving call x).session.books =
      s.books.leave x (s.connector.teardown x).2 .cancelled := by
  set s₁ := s.turnCycle (some .cancelled) none with hs₁
  have hturn : s₁.books = _ := books_turnCycle s (some .cancelled) none
  have hcore := eq_of_core (core_turnCycle s (some .cancelled) none)
  have hfault : (s₁.connector.teardown x).2 = (s.connector.teardown x).2 := by
    rw [show s₁.connector = s.connector from hcore.1]
  have hsession : (s.leaving call x).session.books =
      { s₁.books with
        ledger := (s₁.books.ledger.teardown (s₁.connector.teardown x).2).disconnect .cancelled
        tornDown := x :: s₁.books.tornDown } := rfl
  rw [hsession, hfault, hturn]
  rfl

theorem books_ending (x : Serial) (cause : Cause) :
    (s.ending x cause).session.books = s.books.leave x (s.connector.teardown x).2 cause := by
  set s₁ := (s.teardown x).1.record (·.teardown (s.teardown x).2)
  have hturn : (s₁.turnCycle (some cause) none).books = _ := books_turnCycle s₁ (some cause) none
  have hsession : (s.ending x cause).session.books =
      { (s₁.turnCycle (some cause) none).books with
        ledger := (s₁.turnCycle (some cause) none).books.ledger.disconnect cause } := rfl
  rw [hsession, hturn]
  rfl

theorem books_reject (x : Serial) :
    (s.reject x).books =
      { s.books.tear x (s.connector.teardown x).2 with
        ledger := (s.ledger.teardown (s.connector.teardown x).2).refuseSecond } := rfl

theorem books_release : s.release.books = s.books.release := by
  unfold release
  dsimp only
  rw [books_readMessages, books_readCauses]
  unfold Books.release
  cases ha : s.active with
  | none =>
    have hi : s.books.installed = none := by
      show s.active.map _ = none
      rw [ha]
      rfl
    rw [hi]
    rfl
  | some a =>
    have hi : s.books.installed = some a.session := by
      show s.active.map _ = some a.session
      rw [ha]
      rfl
    rw [hi]
    rfl

end books

end Session

end Switchboard
