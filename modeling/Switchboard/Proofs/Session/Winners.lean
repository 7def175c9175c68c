import Switchboard.Proofs.Session.Races
import Switchboard.Proofs.Session.Teardowns

/-!
# One connect wins

However the phases of some connects come, at most one of them installs its session.

**The rest of the state** (`core`). An install moves the observers, but touches neither the
connector nor the messages. What the phases do to these can be said without the cycles.

**The account** (`Tally`). Every connection belongs to one connect, and those that lost have torn
down theirs.

**The invariant** (`Fair`). Besides the account, the state is as it was before the race, or one
connect has won (`Stage`).

**Main statement** (`one_connect_wins`).
-/

namespace Switchboard.Session

/-! ## What the phases do -/

section phases

variable {s : Session}

theorem establish_of_ok (hok : s.connector.failEstablish = false) :
    s.establish = ({ s with connector := { s.connector with
      establishCalls := s.connector.establishCalls + 1
      lastSerial := s.connector.lastSerial + 1
      pending := s.connector.pending ++ [s.connector.lastSerial + 1] } },
      .ok (s.connector.lastSerial + 1)) := by
  have hconnector : s.connector.establish = ({ s.connector with
      establishCalls := s.connector.establishCalls + 1
      lastSerial := s.connector.lastSerial + 1
      pending := s.connector.pending ++ [s.connector.lastSerial + 1] },
      .ok (s.connector.lastSerial + 1)) := if_neg (by simp [hok])
  rw [establish, hconnector]

/-- The state apart from its cycles, its observers and the calls that have returned. -/
def core (s : Session) : Session :=
  { s with cycle := freshCycle s.settings 0, past := [], observers := [], completions := [] }

theorem eq_of_core {s s' : Session} (h : s'.core = s.core) :
    s'.connector = s.connector ∧ s'.messages = s.messages ∧ s'.active = s.active ∧
      s'.watches = s.watches ∧ s'.hasHandle = s.hasHandle := by
  have hof : ∀ {β : Type} (f : Session → β), f s'.core = f s.core := fun f => congrArg f h
  exact ⟨hof connector, hof messages, hof active, hof watches, hof hasHandle⟩

theorem core_leaveCycle (s : Session) (number : Nat) (id : SubscriptionId) :
    (s.leaveCycle number id).core = s.core := by
  unfold leaveCycle setCycle
  split
  · rfl
  · split <;> rfl

theorem core_observe (s : Session) (name : String) (cause : Option Cause) :
    (s.observe name cause).core = s.core := by
  cases hfind : s.observer? name with
  | none => rw [observe, hfind]
  | some o =>
    have hleave : (s.unsubscribed o).core = s.core := by
      unfold unsubscribed
      split
      · exact core_leaveCycle s _ _
      · rfl
    rw [observe_of_some hfind]
    split <;> exact hleave

theorem core_readCauses (s : Session) (received : List (CauseReader × Option Cause)) :
    (s.readCauses received).core = s.core := by
  induction received generalizing s with
  | nil => rfl
  | cons r rest ih =>
    refine (ih _).trans ?_
    obtain ⟨_ | name, cause⟩ := r
    · rfl
    · exact core_observe s name cause

theorem core_turnCycle (s : Session) (cause : Option Cause) (active : Option Active) :
    (s.turnCycle cause active).core = ({ s with active } : Session).core :=
  core_readCauses _ _

theorem core_readMessages (s : Session) (received : List (Nat × Option Message)) :
    (s.readMessages received).core = s.core := by
  induction received generalizing s with
  | nil => rfl
  | cons r rest ih => exact ih _

theorem install_of_connected (hi : s.active.isSome = true) (x : Serial) :
    s.install x = (s, false) :=
  if_pos hi

theorem install_of_vacant (hi : s.active = none) (x : Serial) :
    ∃ s', s.install x = (s', true) ∧ s'.core = ({ s with
      active := some ⟨x, [], .ofCatalog s.connector.catalog⟩
      watches := s.watches ++ [⟨x, false, none⟩]
      ledger := s.ledger.connect } : Session).core := by
  set active : Active := ⟨x, [], .ofCatalog s.connector.catalog⟩
  set s₁ := s.turnCycle none (some active) with hs₁
  have hnot : ¬ s.isConnected = true := by simp [isConnected, hi]
  refine ⟨({ s₁ with watches := s₁.watches ++ [⟨x, false, none⟩] } : Session).record Ledger.connect,
    by rw [install, if_neg hnot], ?_⟩
  have hcore : s₁.core = ({ s with active := some active } : Session).core := core_turnCycle ..
  exact congrArg (fun s : Session => ({ s with
    watches := s.watches ++ [⟨x, false, none⟩], ledger := s.ledger.connect } : Session)) hcore

theorem reject_of_unwatched {x : Serial} (hw : ∀ w ∈ s.watches, w.session ≠ x) :
    s.reject x = { s with
      connector := (s.connector.teardown x).1
      ledger := (s.ledger.teardown (s.connector.teardown x).2).refuseSecond } := by
  have hfire : s.watches.map (·.fire x .signalLost) = s.watches :=
    (List.map_congr_left fun w hw' => Watch.fire_of_ne (hw w hw')).trans (List.map_id _)
  exact congrArg (fun watches => ({ s with
    connector := (s.connector.teardown x).1
    watches
    ledger := (s.ledger.teardown (s.connector.teardown x).2).refuseSecond } : Session)) hfire

/-- What a connect that won comes to when its message is published. -/
def announced (x : Serial) : Outcome Nat → Outcome (Except SessionError Serial)
  | .returned _ => .returned (.ok x)
  | .parked => .parked

theorem announce_of_returned {who : LifecycleCall} {m : Message} {n : Nat}
    (h : (s.messages.publish who m).result = .returned n) :
    ∃ s', s.announce who m = (s', true) ∧
      s'.core = (({ s with messages := (s.messages.publish who m).hub } : Session).published who).core := by
  set s₁ : Session := { s with messages := (s.messages.publish who m).hub }
  have hread : (s₁.readMessages (s.messages.publish who m).received).core = s₁.core :=
    core_readMessages ..
  refine ⟨(s₁.readMessages (s.messages.publish who m).received).published who, ?_, ?_⟩
  · rw [announce]
    simp only [h]
    rfl
  · cases who with
    | connect call x => exact congrArg (fun s : Session => s.published (.connect call x)) hread
    | disconnect call fault =>
      exact congrArg (fun s : Session => s.published (.disconnect call fault)) hread
    | termination x => exact congrArg (fun s : Session => s.published (.termination x)) hread

theorem announce_of_parked {who : LifecycleCall} {m : Message}
    (h : (s.messages.publish who m).result = .parked) :
    ∃ s', s.announce who m = (s', false) ∧
      s'.core = ({ s with messages := (s.messages.publish who m).hub } : Session).core := by
  set s₁ : Session := { s with messages := (s.messages.publish who m).hub }
  refine ⟨s₁.readMessages (s.messages.publish who m).received, ?_, core_readMessages ..⟩
  rw [announce]
  simp only [h]
  rfl

end phases

/-! ## The account of a race -/

/-- The connections of a race that began with the session `s`: each was established for one
contender, and the rejected ones were torn down. -/
structure Tally (s : Session) (c : Connector) (connections rejected : List Serial) : Prop where
  able : c.failEstablish = false
  last : c.lastSerial = s.connector.lastSerial + connections.length
  calls : c.establishCalls = s.connector.establishCalls + connections.length
  numbered : connections.Perm (List.range' (s.connector.lastSerial + 1) connections.length)
  torn : ∃ torn, c.tornDown = torn ++ s.connector.tornDown ∧ torn.Perm rejected

section tally

variable {s : Session} {c : Connector} {connections rejected : List Serial} {x : Serial}

theorem Tally.perm (ht : Tally s c connections rejected) {connections' rejected' : List Serial}
    (hc : connections'.Perm connections) (hr : rejected'.Perm rejected) :
    Tally s c connections' rejected' := by
  obtain ⟨torn, heq, htorn⟩ := ht.torn
  exact ⟨ht.able, by rw [ht.last, hc.length_eq], by rw [ht.calls, hc.length_eq],
    by rw [hc.length_eq]; exact hc.trans ht.numbered, torn, heq, htorn.trans hr.symm⟩

theorem Tally.establish (ht : Tally s c connections rejected) :
    Tally s { c with
      establishCalls := c.establishCalls + 1
      lastSerial := c.lastSerial + 1
      pending := c.pending ++ [c.lastSerial + 1] } ((c.lastSerial + 1) :: connections) rejected := by
  refine ⟨ht.able, ?_, ?_, ?_, ht.torn⟩
  · rw [ht.last, List.length_cons, Nat.add_assoc]
  · rw [ht.calls, List.length_cons, Nat.add_assoc]
  · rw [List.length_cons, List.range'_concat, Nat.one_mul, ht.last, Nat.add_right_comm]
    exact (ht.numbered.cons _).trans (List.perm_append_singleton _ _).symm

theorem Tally.teardown (ht : Tally s c connections rejected) (x : Serial) :
    Tally s (c.teardown x).1 connections (x :: rejected) := by
  obtain ⟨torn, heq, htorn⟩ := ht.torn
  exact ⟨ht.able, ht.last, ht.calls, ht.numbered, x :: torn, congrArg (x :: ·) heq, htorn.cons x⟩

theorem Tally.nodup (ht : Tally s c connections rejected) : connections.Nodup :=
  ht.numbered.nodup_iff.mpr List.nodup_range'

theorem Tally.fresh (ht : Tally s c connections rejected) (hx : x ∈ connections) :
    s.connector.lastSerial < x :=
  (List.mem_range'_1.mp (ht.numbered.mem_iff.mp hx)).1

end tally

/-! ## One contender among others -/

section contenders

variable {contenders : List Contender} {i j : Nat} {c d : Contender}

theorem mem_of_mem_set {e : Contender} (hne : e ∈ contenders.set i d) : e = d ∨ e ∈ contenders :=
  (List.mem_or_eq_of_mem_set hne).symm

/-- What a change of one contender does to a list of what some of them have. -/
theorem filterMap_set_perm (h : contenders[i]? = some c) (d : Contender) (f : Contender → Option Serial) :
    ((f c).toList ++ (contenders.set i d).filterMap f).Perm
      ((f d).toList ++ contenders.filterMap f) := by
  obtain ⟨hi, rfl⟩ := List.getElem?_eq_some_iff.mp h
  have hsplit : contenders = contenders.take i ++ contenders[i] :: contenders.drop (i + 1) := by
    rw [List.getElem_cons_drop, List.take_append_drop]
  have hset : contenders.set i d = contenders.take i ++ d :: contenders.drop (i + 1) :=
    List.set_eq_take_append_cons_drop.trans (if_pos hi)
  have hmap : ∀ e : Contender, (e :: contenders.drop (i + 1)).filterMap f =
      (f e).toList ++ (contenders.drop (i + 1)).filterMap f := by
    intro e
    rw [List.filterMap_cons]
    cases f e <;> rfl
  rw [hset]
  conv => rhs; rw [hsplit]
  rw [List.filterMap_append, List.filterMap_append, hmap, hmap]
  refine List.perm_iff_count.mpr fun x => ?_
  simp only [List.count_append]
  omega

theorem filterMap_set_perm_of_eq (h : contenders[i]? = some c) {f : Contender → Option Serial}
    (hf : f d = f c) : ((contenders.set i d).filterMap f).Perm (contenders.filterMap f) := by
  have hperm := filterMap_set_perm h d f
  rw [hf] at hperm
  exact (List.perm_append_left_iff _).mp hperm

theorem eq_of_connection (hn : (contenders.filterMap (·.phase.connection)).Nodup)
    (hi : contenders[i]? = some c) (hj : contenders[j]? = some d) {x : Serial}
    (hc : c.phase.connection = some x) (hd : d.phase.connection = some x) : i = j := by
  by_contra hne
  have hj' : (contenders.set i { c with phase := .begun })[j]? = some d := by
    rw [List.getElem?_set_ne hne]
    exact hj
  have hperm := filterMap_set_perm hi { c with phase := .begun } (·.phase.connection)
  have hmem : x ∈ (contenders.set i { c with phase := .begun }).filterMap (·.phase.connection) :=
    List.mem_filterMap.mpr ⟨d, List.mem_of_getElem? hj', hd⟩
  have hdup := hperm.nodup_iff.mpr hn
  rw [hc] at hdup
  exact (List.nodup_cons.mp hdup).1 hmem

end contenders

/-! ## The invariant -/

/-- How a race stands that began with the session `s`. -/
inductive Stage (s : Session) (r : Race) : Prop
  /-- Nobody has come to install yet. -/
  | vacant :
      s.active = none → r.session.active = none → r.session.messages = s.messages →
      r.session.watches = s.watches →
      (∀ c ∈ r.contenders, c.phase = .begun ∨ ∃ x, c.phase = .established x) → Stage s r
  /-- A session was installed before the race. -/
  | taken {a : Active} :
      s.active = some a → r.session.active = some a → r.session.cycle = s.cycle →
      r.session.messages = s.messages → r.session.watches = s.watches →
      (∀ c ∈ r.contenders, c.phase.Loses) → Stage s r
  /-- Contender number `k` has won. -/
  | won {k : Nat} {w : Contender} {x : Serial} {running : Bool} :
      s.active = none → r.contenders[k]? = some w → r.session.installed = some x →
      r.session.watches = s.watches ++ [⟨x, running, none⟩] →
      (w.phase = .won x ∧ r.session.messages = s.messages ∨
        w.phase = .ended (some x) (announced x
            (s.messages.publish (.connect w.call x) (.status Message.connectedText)).result) ∧
          r.session.messages =
            (s.messages.publish (.connect w.call x) (.status Message.connectedText)).hub) →
      (∀ i c, i ≠ k → r.contenders[i]? = some c → c.phase.Loses) → Stage s r

/-- What holds throughout a race that began with the session `s`. -/
structure Fair (s : Session) (r : Race) : Prop where
  valid : ∀ c ∈ r.contenders, ∃ o, c.options.validate = .ok o
  held : r.session.hasHandle = true
  tally : Tally s r.session.connector r.connections r.rejected
  stage : Stage s r

/-- What a session must be like for a race to begin. -/
structure Ready (s : Session) : Prop where
  held : s.hasHandle = true
  able : s.connector.failEstablish = false
  bounded : ∀ w ∈ s.watches, w.session ≤ s.connector.lastSerial
  quiet : Quiet s

section fair

variable {s : Session} {r : Race} {i : Nat} {c : Contender}

theorem fair_start (hs : Ready s) {calls : List (Nat × Options)}
    (hvalid : ∀ c ∈ calls, ∃ o, c.2.validate = .ok o) : Fair s (.start s calls) := by
  have hnone : ∀ f : Phase → Option Serial, f .begun = none →
      (Race.start s calls).contenders.filterMap (fun c => f c.phase) = [] := by
    intro f hf
    refine List.filterMap_eq_nil_iff.mpr fun c hc => ?_
    obtain ⟨p, -, rfl⟩ := List.mem_map.mp hc
    exact hf
  have hbegun : ∀ c ∈ (Race.start s calls).contenders, c.phase = .begun := by
    intro c hc
    obtain ⟨p, -, rfl⟩ := List.mem_map.mp hc
    rfl
  constructor
  case valid =>
    intro c hc
    obtain ⟨p, hp, rfl⟩ := List.mem_map.mp hc
    exact hvalid p hp
  case held => exact hs.held
  case tally =>
    rw [Race.connections, Race.rejected, hnone Phase.connection rfl, hnone Phase.tornDown rfl]
    exact ⟨hs.able, rfl, rfl, .refl _, [], rfl, .refl _⟩
  case stage =>
    cases ha : s.active with
    | none => exact .vacant ha ha rfl rfl fun c hc => Or.inl (hbegun c hc)
    | some a =>
      refine .taken ha ha rfl rfl rfl fun c hc => ?_
      rw [hbegun c hc]
      trivial

/-- Before the last turn of a contender, nobody watches over its connection unless it has won. -/
theorem Fair.unwatched (hf : Fair s r) (hs : Ready s) (hc : r.contenders[i]? = some c) {x : Serial}
    (hx : c.phase = .lost x) : ∀ w ∈ r.session.watches, w.session ≠ x := by
  have hconn : c.phase.connection = some x := by rw [hx]; rfl
  have hfresh : s.connector.lastSerial < x :=
    hf.tally.fresh (List.mem_filterMap.mpr ⟨c, List.mem_of_getElem? hc, hconn⟩)
  have hold : ∀ w ∈ s.watches, w.session ≠ x := fun w hw =>
    Nat.ne_of_lt ((hs.bounded w hw).trans_lt hfresh)
  cases hf.stage with
  | vacant _ _ _ hw _ => rwa [hw]
  | taken _ _ _ _ hw _ => rwa [hw]
  | @won k w y running _ hk _ hwatches hphase _ =>
    rw [hwatches]
    intro v hv
    rcases List.mem_append.mp hv with hv | hv
    · exact hold v hv
    · rw [List.mem_singleton.mp hv]
      rintro rfl
      have hwin : w.phase.connection = some y := by
        rcases hphase with ⟨hp, -⟩ | ⟨hp, -⟩ <;> rw [hp] <;> rfl
      obtain rfl := eq_of_connection hf.tally.nodup hc hk hconn hwin
      obtain rfl := Option.some.inj (hc.symm.trans hk)
      rcases hphase with ⟨hp, -⟩ | ⟨hp, -⟩ <;> rw [hx] at hp <;> cases hp

theorem Stage.change (hst : Stage s r) (hc : r.contenders[i]? = some c) (hloses : c.phase.Loses)
    {t : Session} (hsame : t.active = r.session.active ∧ t.cycle = r.session.cycle ∧
      t.messages = r.session.messages ∧ t.watches = r.session.watches)
    {p : Phase} (hp : p.Loses)
    (hearly : r.session.active = none → (c.phase = .begun ∨ ∃ x, c.phase = .established x) →
      p = .begun ∨ ∃ x, p = .established x) :
    Stage s ⟨t, r.contenders.set i { c with phase := p }⟩ := by
  obtain ⟨hactive, hcycle, hmessages, hwatches⟩ := hsame
  have hmem := List.mem_of_getElem? hc
  cases hst with
  | vacant hs ha hm hw hall =>
    refine .vacant hs (hactive.trans ha) (hmessages.trans hm) (hwatches.trans hw) fun e he => ?_
    rcases mem_of_mem_set he with rfl | he
    · exact hearly ha (hall c hmem)
    · exact hall e he
  | taken hs ha hk hm hw hall =>
    refine .taken hs (hactive.trans ha) (hcycle.trans hk) (hmessages.trans hm) (hwatches.trans hw)
      fun e he => ?_
    rcases mem_of_mem_set he with rfl | he
    · exact hp
    · exact hall e he
  | @won k w x running hs hk hi hw hphase hall =>
    have hne : i ≠ k := by
      rintro rfl
      obtain rfl := Option.some.inj (hc.symm.trans hk)
      rcases hphase with ⟨hwin, -⟩ | ⟨hwin, -⟩
      · rw [hwin] at hloses
        exact hloses
      · rw [hwin] at hloses
        have hout : announced x _ = .returned (.error .alreadyConnected) := hloses
        revert hout
        generalize (s.messages.publish _ _).result = result
        cases result <;> exact nofun
    have hi' : t.installed = some x := by
      rw [installed, hactive]
      exact hi
    refine .won hs ((List.getElem?_set_ne hne).trans hk) hi' (hwatches.trans hw)
      (hphase.imp (And.imp_right hmessages.trans) (And.imp_right hmessages.trans)) fun j e hj he => ?_
    by_cases hij : i = j
    · subst hij
      obtain ⟨hlt, -⟩ := List.getElem?_eq_some_iff.mp hc
      rw [List.getElem?_set_self hlt] at he
      rw [← Option.some.inj he]
      exact hp
    · exact hall j e hj ((List.getElem?_set_ne hij).symm.trans he)

theorem Fair.valid_set (hf : Fair s r) (hc : r.contenders[i]? = some c) (p : Phase) :
    ∀ e ∈ r.contenders.set i { c with phase := p }, ∃ o, e.options.validate = .ok o := by
  intro e he
  rcases mem_of_mem_set he with rfl | he
  · exact hf.valid c (List.mem_of_getElem? hc)
  · exact hf.valid e he

theorem Fair.establish (hf : Fair s r) (hc : r.contenders[i]? = some c) (hp : c.phase = .begun) :
    Fair s (r.turn i) := by
  obtain ⟨o, ho⟩ := hf.valid c (List.mem_of_getElem? hc)
  rw [Race.turn_of_some hc, Contender.proceed, hp]
  dsimp only
  rw [ho, establish_of_ok hf.tally.able]
  dsimp only
  set x := r.session.connector.lastSerial + 1
  refine ⟨hf.valid_set hc _, hf.held, hf.tally.establish.perm ?_ ?_, ?_⟩
  · have hperm := filterMap_set_perm hc { c with phase := .established x } (·.phase.connection)
    rw [hp] at hperm
    exact hperm
  · exact filterMap_set_perm_of_eq hc (by rw [hp]; rfl)
  · refine hf.stage.change hc (by rw [hp]; trivial) ⟨?_, ?_, ?_, ?_⟩ ?_ fun _ _ => Or.inr ⟨x, rfl⟩
    all_goals first | rfl | trivial

/-- A contender finds a session installed, or installs its own. -/
theorem Fair.install (hf : Fair s r) (hc : r.contenders[i]? = some c) {x : Serial}
    (hp : c.phase = .established x) : Fair s (r.turn i) := by
  have hperm : ∀ p : Phase, p.connection = some x → p.tornDown = none →
      ((r.contenders.set i { c with phase := p }).filterMap (·.phase.connection)).Perm r.connections ∧
        ((r.contenders.set i { c with phase := p }).filterMap (·.phase.tornDown)).Perm r.rejected :=
    fun p hconn htorn => ⟨filterMap_set_perm_of_eq hc (by rw [hp]; exact hconn),
      filterMap_set_perm_of_eq hc (by rw [hp]; exact htorn)⟩
  have hloses : c.phase.Loses := by
    rw [hp]
    trivial
  rw [Race.turn_of_some hc, Contender.proceed, hp]
  dsimp only
  cases hactive : r.session.active with
  | some a =>
    obtain ⟨hconn, htorn⟩ := hperm (.lost x) rfl rfl
    rw [install_of_connected (by rw [hactive]; rfl)]
    refine ⟨hf.valid_set hc _, hf.held, hf.tally.perm hconn htorn, hf.stage.change hc hloses
      ⟨rfl, rfl, rfl, rfl⟩ trivial fun hnone _ => ?_⟩
    rw [hactive] at hnone
    cases hnone
  | none =>
    obtain ⟨hconn, htorn⟩ := hperm (.won x) rfl rfl
    obtain ⟨s', hinstall, hcore⟩ := install_of_vacant hactive x
    rw [hinstall]
    obtain ⟨hconnector, hmessages, hactive', hwatches, hheld⟩ := eq_of_core hcore
    have htally := hf.tally.perm hconn htorn
    refine ⟨hf.valid_set hc _, hheld.trans hf.held, ?_, ?_⟩
    · show Tally s s'.connector _ _
      rw [hconnector]
      exact htally
    · have hinstalled : s'.installed = some x := by
        rw [installed, hactive']
        rfl
      obtain ⟨hlt, -⟩ := List.getElem?_eq_some_iff.mp hc
      -- Nothing is installed, so nobody has won before.
      cases hf.stage with
      | vacant hs _ hm hw hall =>
        refine .won hs (List.getElem?_set_self hlt) hinstalled (hwatches.trans (by rw [← hw]))
          (Or.inl ⟨rfl, hmessages.trans hm⟩) fun j e hj he => ?_
        rw [List.getElem?_set_ne (Ne.symm hj)] at he
        rcases hall e (List.mem_of_getElem? he) with hb | ⟨y, hb⟩ <;> rw [hb] <;> trivial
      | taken _ ha _ _ _ _ =>
        rw [hactive] at ha
        cases ha
      | won _ _ hi _ _ _ =>
        rw [installed, hactive] at hi
        cases hi

theorem Fair.reject (hf : Fair s r) (hs : Ready s) (hc : r.contenders[i]? = some c) {x : Serial}
    (hp : c.phase = .lost x) : Fair s (r.turn i) := by
  rw [Race.turn_of_some hc, Contender.proceed, hp]
  dsimp only
  rw [reject_of_unwatched (hf.unwatched hs hc hp)]
  refine ⟨hf.valid_set hc _, hf.held, (hf.tally.teardown x).perm ?_ ?_, ?_⟩
  · exact filterMap_set_perm_of_eq hc (by rw [hp]; rfl)
  · have hperm := filterMap_set_perm hc
      { c with phase := .ended (some x) (.returned (.error .alreadyConnected)) } (·.phase.tornDown)
    rw [hp] at hperm
    exact hperm
  · refine hf.stage.change hc (by rw [hp]; trivial) ⟨?_, ?_, ?_, ?_⟩ ?_ fun _ hearly => ?_
    case refine_6 =>
      rw [hp] at hearly
      rcases hearly with h | ⟨y, h⟩ <;> cases h
    all_goals rfl

/-- After the message of the contender that won there is nothing to settle. -/
theorem Fair.finish (hf : Fair s r) (hs : Ready s) (hc : r.contenders[i]? = some c) {x : Serial}
    (hp : c.phase = .won x) (hvacant : s.active = none) (hi : r.session.installed = some x)
    (hall : ∀ j e, j ≠ i → r.contenders[j]? = some e → e.phase.Loses) {t : Session} {b : Bool}
    {result : Outcome Nat}
    (hresult : (s.messages.publish (.connect c.call x) (.status Message.connectedText)).result = result)
    (hconnector : t.connector = r.session.connector) (hactive : t.active = r.session.active)
    (hheld : t.hasHandle = r.session.hasHandle)
    (hmessages : t.messages =
      (s.messages.publish (.connect c.call x) (.status Message.connectedText)).hub)
    (hwatches : t.watches = s.watches ++ [⟨x, b, none⟩]) :
    Fair s ⟨t.settle, r.contenders.set i { c with phase := .ended (some x) (announced x result) }⟩ := by
  have hquiet : Quiet t := by
    intro w hw
    rw [hwatches] at hw
    rcases List.mem_append.mp hw with hw | hw
    · exact hs.quiet w hw
    · rw [List.mem_singleton.mp hw]
      exact Bool.and_false b
  rw [settle_of_quiet hquiet,
    releaseIfUnheld_of_kept (Or.inr (isHeld_of_hasHandle (hheld.trans hf.held)))]
  obtain ⟨hlt, -⟩ := List.getElem?_eq_some_iff.mp hc
  refine ⟨hf.valid_set hc _, hheld.trans hf.held, ?_, ?_⟩
  · show Tally s t.connector _ _
    rw [hconnector]
    refine hf.tally.perm (filterMap_set_perm_of_eq hc ?_) (filterMap_set_perm_of_eq hc ?_)
    · rw [hp]
      rfl
    · rw [hp]
      cases result <;> rfl
  · refine .won hvacant (List.getElem?_set_self hlt) ?_ hwatches (Or.inr ⟨?_, hmessages⟩)
      fun j e hj he => ?_
    · rw [installed, hactive]
      exact hi
    · rw [hresult]
    · rw [List.getElem?_set_ne (Ne.symm hj)] at he
      exact hall j e hj he

theorem Fair.announce (hf : Fair s r) (hs : Ready s) (hc : r.contenders[i]? = some c) {x : Serial}
    (hp : c.phase = .won x) : Fair s (r.turn i) := by
  have hnot : ¬ c.phase.Loses := by
    rw [hp]
    exact id
  cases hf.stage with
  | vacant _ _ _ _ hall =>
    rcases hall c (List.mem_of_getElem? hc) with h | ⟨y, h⟩ <;> rw [hp] at h <;> cases h
  | taken _ _ _ _ _ hall => exact absurd (hall c (List.mem_of_getElem? hc)) hnot
  | @won k w y running hvacant hk hi hw hphase hall =>
    obtain rfl : i = k := by
      by_contra hne
      exact hnot (hall i c hne hc)
    obtain rfl := Option.some.inj (hc.symm.trans hk)
    obtain ⟨hwin, hm⟩ := hphase.resolve_right fun h => by
      rw [hp] at h
      cases h.1
    obtain rfl : x = y := Phase.won.inj (hp.symm.trans hwin)
    rw [Race.turn_of_some hc, Contender.proceed, hp]
    dsimp only
    have hfresh : s.connector.lastSerial < x := by
      refine hf.tally.fresh (List.mem_filterMap.mpr ⟨c, List.mem_of_getElem? hc, ?_⟩)
      rw [hp]
      rfl
    cases hresult : (s.messages.publish (.connect c.call x)
      (.status Message.connectedText)).result with
    | returned n =>
      obtain ⟨t, hannounce, hcore⟩ := announce_of_returned (s := r.session) (by rw [hm]; exact hresult)
      obtain ⟨hconnector, hmessages, hactive, hwatches, hheld⟩ := eq_of_core hcore
      rw [hannounce]
      refine hf.finish hs hc hp hvacant hi hall hresult hconnector hactive hheld
        (hmessages.trans (by rw [← hm]; rfl)) (b := true) (hwatches.trans ?_)
      -- Only the watch over the new session starts.
      have hold : s.watches.map (·.start (.connect c.call x)) = s.watches :=
        (List.map_congr_left fun w hw => if_neg
          (Nat.ne_of_lt ((hs.bounded w hw).trans_lt hfresh))).trans (List.map_id _)
      show r.session.watches.map (·.start (.connect c.call x)) = _
      rw [hw, List.map_append, hold]
      exact congrArg (s.watches ++ [·]) (if_pos rfl)
    | parked =>
      obtain ⟨t, hannounce, hcore⟩ := announce_of_parked (s := r.session) (by rw [hm]; exact hresult)
      obtain ⟨hconnector, hmessages, hactive, hwatches, hheld⟩ := eq_of_core hcore
      rw [hannounce]
      exact hf.finish hs hc hp hvacant hi hall hresult hconnector hactive hheld
        (hmessages.trans (by rw [← hm])) (hwatches.trans hw)

/-- **A turn keeps a race fair.** -/
theorem Fair.turn (hf : Fair s r) (hs : Ready s) (i : Nat) : Fair s (r.turn i) := by
  cases hc : r.contenders[i]? with
  | none =>
    rw [Race.turn, hc]
    exact hf
  | some c =>
    cases hp : c.phase with
    | begun => exact hf.establish hc hp
    | established x => exact hf.install hc hp
    | lost x => exact hf.reject hs hc hp
    | won x => exact hf.announce hs hc hp
    | ended x outcome =>
      have hsame : r.turn i = r := by
        obtain ⟨hlt, heq⟩ := List.getElem?_eq_some_iff.mp hc
        have hset : r.contenders.set i c = r.contenders := by rw [← heq, List.set_getElem_self]
        rw [Race.turn_of_some hc, Contender.proceed, hp]
        dsimp only
        rw [← hp, hset]
      rw [hsame]
      exact hf

theorem Fair.run (hf : Fair s r) (hs : Ready s) (schedule : List Nat) : Fair s (r.run schedule) := by
  induction schedule generalizing r with
  | nil => exact hf
  | cons i schedule ih => exact ih (hf.turn hs i)

end fair

/-! ## The end of a race -/

section final

variable {r : Race} {i : Nat} {c : Contender}

/-- Every turn of a contender that has not come to its end brings it nearer. -/
theorem Contender.left_proceed (c : Contender) (s : Session) :
    (c.proceed s).2.left ≤ c.phase.left - 1 := by
  unfold proceed
  cases c.phase with
  | begun =>
    dsimp only
    split
    · exact Nat.zero_le _
    · split
      · exact Nat.zero_le _
      · exact Nat.le_refl _
  | established x =>
    dsimp only
    split <;> exact Nat.le_refl _
  | lost x => exact Nat.le_refl _
  | won x =>
    dsimp only
    split <;> exact Nat.le_refl _
  | ended x outcome => exact Nat.le_refl _

theorem Race.run_spec (hc : r.contenders[i]? = some c) (schedule : List Nat) :
    ∃ d, (r.run schedule).contenders[i]? = some d ∧ d.call = c.call ∧ d.options = c.options ∧
      d.phase.left ≤ c.phase.left - schedule.count i := by
  induction schedule generalizing r c with
  | nil => exact ⟨c, hc, rfl, rfl, Nat.le_refl _⟩
  | cons j schedule ih =>
    rw [Race.run_cons]
    by_cases hij : j = i
    · subst hij
      obtain ⟨hlt, -⟩ := List.getElem?_eq_some_iff.mp hc
      have hnext : (r.turn j).contenders[j]? =
          some { c with phase := (c.proceed r.session).2 } := by
        rw [Race.turn_of_some hc]
        exact List.getElem?_set_self hlt
      obtain ⟨d, hd, hcall, hoptions, hleft⟩ := ih hnext
      have hstep := c.left_proceed r.session
      rw [List.count_cons_self]
      exact ⟨d, hd, hcall, hoptions, hleft.trans (by dsimp only; omega)⟩
    · have hsame : (r.turn j).contenders[i]? = some c := by
        cases hj : r.contenders[j]? with
        | none =>
          rw [Race.turn, hj]
          exact hc
        | some d =>
          rw [Race.turn_of_some hj]
          exact (List.getElem?_set_ne hij).trans hc
      rw [List.count_cons_of_ne hij]
      exact ih hsame

theorem Race.length_run (r : Race) (schedule : List Nat) :
    (r.run schedule).contenders.length = r.contenders.length := by
  induction schedule generalizing r with
  | nil => rfl
  | cons i schedule ih =>
    refine (ih _).trans ?_
    unfold Race.turn
    split
    · rfl
    · exact List.length_set

/-- After three turns of each call all of them have come to their end. -/
theorem Race.ended_of_turns {s : Session} {calls : List (Nat × Options)} {schedule : List Nat}
    (hturns : ∀ i < calls.length, 3 ≤ schedule.count i) :
    ((Race.start s calls).run schedule).contenders.map (fun c => (c.call, c.options)) = calls ∧
      ∀ c ∈ ((Race.start s calls).run schedule).contenders, ∃ x outcome, c.phase = .ended x outcome := by
  set r := (Race.start s calls).run schedule with hr
  have hlength : r.contenders.length = calls.length := by
    rw [hr, Race.length_run]
    exact List.length_map _
  have hat : ∀ i (hi : i < calls.length), ∃ d, r.contenders[i]? = some d ∧
      (d.call, d.options) = calls[i] ∧ d.phase.left = 0 := by
    intro i hi
    have hc : (Race.start s calls).contenders[i]? = some ⟨calls[i].1, calls[i].2, .begun⟩ := by
      show (calls.map _)[i]? = _
      rw [List.getElem?_map, List.getElem?_eq_getElem hi]
      rfl
    obtain ⟨d, hd, hcall, hoptions, hleft⟩ := Race.run_spec hc schedule
    refine ⟨d, hd, by rw [hcall, hoptions], ?_⟩
    have hcount := hturns i hi
    have hzero : (Phase.begun.left : Nat) - schedule.count i = 0 := Nat.sub_eq_zero_of_le hcount
    exact Nat.le_zero.mp (hzero ▸ hleft)
  constructor
  · refine List.ext_getElem (by rw [List.length_map, hlength]) fun i hi hi' => ?_
    obtain ⟨d, hd, heq, -⟩ := hat i hi'
    rw [List.getElem_map, ← heq]
    rw [List.getElem?_eq_some_iff] at hd
    rw [hd.2]
  · intro c hc
    obtain ⟨i, hi, rfl⟩ := List.mem_iff_getElem.mp hc
    obtain ⟨d, hd, -, hleft⟩ := hat i (hlength ▸ hi)
    rw [List.getElem?_eq_some_iff] at hd
    rw [hd.2]
    cases hp : d.phase with
    | ended x outcome => exact ⟨x, outcome, rfl⟩
    | _ =>
      rw [hp] at hleft
      cases hleft

/-- A contender that has come to its end without winning has lost. -/
theorem Phase.Loses.refused {p : Phase} (hl : p.Loses) (he : ∃ x outcome, p = .ended x outcome) :
    ∃ x, p = .refused x := by
  obtain ⟨x, outcome, rfl⟩ := he
  cases x with
  | none => exact hl.elim
  | some x => exact ⟨x, congrArg (Phase.ended (some x)) hl⟩

theorem Phase.connection_of_tornDown {p : Phase} {x : Serial} (h : p.tornDown = some x) :
    p.connection = some x := by
  unfold tornDown at h
  split at h
  · exact h
  · cases h

theorem mem_parkedCalls_of_parked {h : Hub LifecycleCall Nat Message} (hg : h.Good)
    {who : LifecycleCall} {m : Message} (hparked : (h.publish who m).result = .parked) :
    who ∈ parkedCalls (h.publish who m).hub := by
  have hpassed := passed_publish hg who m
  rw [hparked] at hpassed
  have hmem := hpassed.calls.mem_iff.mp (List.mem_append_right _ (List.mem_singleton_self _))
  rwa [List.append_nil] at hmem

theorem Fair.connection_isSome {s : Session} (hf : Fair s r)
    (he : ∃ x outcome, c.phase = .ended x outcome) (hc : c ∈ r.contenders) :
    c.phase.connection.isSome = true := by
  have hloses : c.phase.Loses → c.phase.connection.isSome = true := by
    intro hl
    obtain ⟨x, hp⟩ := hl.refused he
    rw [hp]
    rfl
  cases hf.stage with
  | vacant _ _ _ _ hall =>
    obtain ⟨x, outcome, hp⟩ := he
    rcases hall c hc with h | ⟨y, h⟩ <;> rw [hp] at h <;> cases h
  | taken _ _ _ _ _ hall => exact hloses (hall c hc)
  | @won k w x _ _ hk _ _ hphase hall =>
    obtain ⟨i, hi⟩ := List.mem_iff_getElem?.mp hc
    by_cases hik : i = k
    · subst hik
      obtain rfl := Option.some.inj (hi.symm.trans hk)
      rcases hphase with ⟨hp, -⟩ | ⟨hp, -⟩ <;> rw [hp] <;> rfl
    · exact hloses (hall i c hik hi)

/-- A connection is torn down only for the contender that rejected it. -/
theorem Fair.not_mem_tornDown {s : Session} (hf : Fair s r)
    (hold : ∀ y ∈ s.connector.tornDown, y ≤ s.connector.lastSerial) (hc : r.contenders[i]? = some c)
    {x : Serial} (hconn : c.phase.connection = some x) (hkept : c.phase.tornDown = none) :
    x ∉ r.session.connector.tornDown := by
  intro htorn
  obtain ⟨torn, heq, hperm⟩ := hf.tally.torn
  rw [heq] at htorn
  rcases List.mem_append.mp htorn with htorn | htorn
  · obtain ⟨d, hd, hdx⟩ := List.mem_filterMap.mp (hperm.mem_iff.mp htorn)
    obtain ⟨j, hj⟩ := List.mem_iff_getElem?.mp hd
    obtain rfl := eq_of_connection hf.tally.nodup hj hc (Phase.connection_of_tornDown hdx) hconn
    obtain rfl := Option.some.inj (hj.symm.trans hc)
    rw [hkept] at hdx
    cases hdx
  · have hmem : x ∈ r.connections := List.mem_filterMap.mpr ⟨c, List.mem_of_getElem? hc, hconn⟩
    exact absurd (hf.tally.fresh hmem) (Nat.not_lt.mpr (hold x htorn))

end final

/-- **However the phases of some connects come, one of them wins if there was nothing to lose to.**

Each call has one connection established. If a session was installed before, all calls find it, and
it, its cycle and the messages stay as they are. Otherwise the session of one call is installed, and
its message is the only one; the call has returned, unless that publish is parked. All others find a
session installed, and it is their connections that are torn down, each once. -/
theorem one_connect_wins (settings : Settings) (players : List Player) (catalog : List Packet.Entry)
    (before : List Step) (calls : List (Nat × Options)) (schedule : List Nat)
    (hheld : (run settings players catalog before).session.hasHandle = true)
    (hable : (run settings players catalog before).session.connector.failEstablish = false)
    (hvalid : ∀ c ∈ calls, ∃ o, c.2.validate = .ok o)
    (hturns : ∀ i < calls.length, 3 ≤ schedule.count i) :
    let s := (run settings players catalog before).session
    let r := (Race.start s calls).run schedule
    r.contenders.map (fun c => (c.call, c.options)) = calls ∧
      r.session.connector.establishCalls = s.connector.establishCalls + calls.length ∧
      r.connections.Perm (List.range' (s.connector.lastSerial + 1) calls.length) ∧
      (∃ torn, r.session.connector.tornDown = torn ++ s.connector.tornDown ∧
        torn.Perm r.rejected) ∧
      (s.isConnected = true →
        (∀ c ∈ r.contenders, ∃ x, c.phase = .refused x) ∧
          r.session.active = s.active ∧ r.session.cycle = s.cycle ∧
          r.session.messages = s.messages) ∧
      (s.isConnected = false → calls ≠ [] →
        ∃ (k : Nat) (w : Contender) (x : Serial), r.contenders[k]? = some w ∧
          (∀ (i : Nat) (c : Contender), i ≠ k → r.contenders[i]? = some c →
            ∃ y, c.phase = .refused y) ∧
          let reply := s.messages.publish (.connect w.call x) (.status Message.connectedText)
          w.phase = .ended (some x) (announced x reply.result) ∧
          (reply.result = .parked → .connect w.call x ∈ parkedCalls reply.hub) ∧
          r.session.messages = reply.hub ∧ r.session.installed = some x ∧
          x ∉ r.session.connector.tornDown) := by
  intro s r
  have hrest := run_atRest settings players catalog before
  have hready : Ready s := ⟨hheld, hable, fun w hw => hrest.valid.accounted.bounded w hw, hrest.quiet⟩
  obtain ⟨hcalls, hended⟩ : r.contenders.map (fun c => (c.call, c.options)) = calls ∧ _ :=
    Race.ended_of_turns hturns
  have hfair : Fair s r := (fair_start hready hvalid).run hready schedule
  have hconnections : r.connections.length = calls.length := by
    rw [← hcalls, List.length_map, Race.connections, List.length_filterMap_eq_countP,
      List.countP_eq_length]
    exact fun c hc => hfair.connection_isSome (hended c hc) hc
  have htally := hfair.tally
  refine ⟨hcalls, hconnections ▸ htally.calls, hconnections ▸ htally.numbered, htally.torn,
    fun hi => ?_, fun hi hne => ?_⟩
  · cases hfair.stage with
    | vacant hs _ _ _ _ =>
      rw [isConnected, hs] at hi
      cases hi
    | won hs _ _ _ _ _ =>
      rw [isConnected, hs] at hi
      cases hi
    | taken hs ha hcycle hm _ hall =>
      exact ⟨fun c hc => (hall c hc).refused (hended c hc), ha.trans hs.symm, hcycle, hm⟩
  · cases hfair.stage with
    | vacant _ _ _ _ hall =>
      -- Somebody has come to the end, and so has installed.
      obtain ⟨c, hc⟩ := List.exists_mem_of_ne_nil r.contenders fun hnil => hne (by
        rw [← hcalls, hnil]
        rfl)
      obtain ⟨x, outcome, hp⟩ := hended c hc
      rcases hall c hc with h | ⟨y, h⟩ <;> rw [hp] at h <;> cases h
    | taken hs _ _ _ _ _ =>
      rw [isConnected, hs] at hi
      cases hi
    | @won k w x running _ hk hinstalled _ hphase hall =>
      have hmem := List.mem_of_getElem? hk
      obtain ⟨y, outcome, hp⟩ := hended w hmem
      obtain ⟨hphase, hm⟩ := hphase.resolve_left fun h => by
        rw [hp] at h
        cases h.1
      refine ⟨k, w, x, hk, fun i c hik hc =>
        (hall i c hik hc).refused (hended c (List.mem_of_getElem? hc)), hphase, fun hparked => ?_, hm,
        hinstalled, ?_⟩
      · exact mem_parkedCalls_of_parked hrest.valid.accounted.good hparked
      · refine hfair.not_mem_tornDown (fun y hy => ?_) hk ?_ ?_
        · exact (Connector.mem_established.mp (hrest.mem_established_of_tornDown hy)).2
        · rw [hphase]
          rfl
        · rw [hphase]
          generalize (s.messages.publish _ _).result = result
          cases result <;> rfl

/-- The last of three calls to establish its connection installs it first. -/
theorem one_connect_wins_last :
    let r := (Race.start (run .standard [] [] [.startObserver "o" none]).session
      [(1, .forServer "a"), (2, .forServer "b"), (3, .forServer "c")]).run [0, 1, 2, 2, 1, 0, 0, 2, 1]
    r.session.installed = some 3 ∧ r.session.connector.tornDown = [2, 1] ∧
      ∃ (k : Nat) (w : Contender) (x : Serial), r.contenders[k]? = some w ∧
        r.session.installed = some x ∧ x ∉ r.session.connector.tornDown ∧
        ∀ (i : Nat) (c : Contender), i ≠ k → r.contenders[i]? = some c → ∃ y, c.phase = .refused y := by
  intro r
  obtain ⟨-, -, -, -, -, hwin⟩ := one_connect_wins .standard [] [] [.startObserver "o" none]
    [(1, .forServer "a"), (2, .forServer "b"), (3, .forServer "c")] [0, 1, 2, 2, 1, 0, 0, 2, 1]
    (by decide +kernel) (by decide +kernel) (fun c hc => ⟨c.2.trimmed, by
      revert c
      decide +kernel⟩) (by decide +kernel)
  obtain ⟨k, w, x, hk, hothers, -, -, -, hi, htorn⟩ := hwin (by decide +kernel) (by decide)
  exact ⟨by decide +kernel, by decide +kernel, k, w, x, hk, hi, htorn, hothers⟩

end Switchboard.Session
