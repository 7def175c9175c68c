import Mathlib.Data.List.TakeWhile
import Switchboard.Proofs.Session.Outcomes

/-!
# Connects that fail

A connect that fails may have been refused before its connection was established, or it has to undo
one. Either way only counters tell that it was made.

**The footing** (`footing`). The state without the ledger and without the connector's counts: the
cycles with their hubs and registries, what is installed, the pending signals, the messages, the
watches, the observers and the holders.

**Races** (`Race.footing`). While some connects are under way, the signals of their connections are
pending for them alone and are left out. Nobody watches over such a connection (`Race.Tidy`), so that
a connect that lost can take it back.

**Main statements** (`footing_connect`, `Race.Tidy.footing_turn`). A connect that fails leaves the
footing, and so does each of its turns in a race.
-/

namespace Switchboard

theorem Text.trim_eq_empty_iff {s : String} : trim s = "" ↔ allBlank s = true := by
  have hempty : trim s = "" ↔ trimChars s.toList = [] := by
    rw [trim, ← String.toList_inj, String.toList_ofList]
    rfl
  rw [hempty, trimChars, dropEndWhile, List.reverse_eq_nil_iff, List.dropWhile_eq_nil_iff, allBlank,
    List.all_eq_true]
  constructor
  · intro h
    -- What is left at the start would begin with a character that is not blank.
    have hstart : trimStart s.toList = [] := by
      by_contra hne
      have hhead := h _ (List.mem_reverse.mpr (List.head_mem hne))
      rw [show isBlank ((trimStart s.toList).head hne) = false from
        List.head_dropWhile_not isBlank hne] at hhead
      cases hhead
    exact List.dropWhile_eq_nil_iff.mp hstart
  · intro h c hc
    exact h c ((List.dropWhile_sublist _).mem (List.mem_reverse.mp hc))

namespace Session

/-- The state without what counts the calls, with other signals pending. -/
def footingWith (s : Session) (pending : List Serial) : Session :=
  { s with
    connector := { s.connector with pending, lastSerial := 0, establishCalls := 0, tornDown := [] }
    ledger := .empty }

/-- The state without what counts the calls. -/
def footing (s : Session) : Session := s.footingWith s.connector.pending

theorem footingWith_congr {s s' : Session} {pending : List Serial}
    (h : s'.footingWith pending = s.footingWith pending) (pending' : List Serial) :
    s'.footingWith pending' = s.footingWith pending' :=
  (congrArg (footingWith · pending') h :)

/-! ## One connect -/

section connects

variable {s : Session}

/-- Options are refused exactly if the server code is blank. -/
theorem validate_of_blank {options : Options} (h : Text.allBlank options.serverCode = true) :
    options.validate = .error (.invalidOptions Options.serverCodeRequired) :=
  if_pos (Text.trim_eq_empty_iff.mpr h)

theorem validate_of_not_blank {options : Options} (h : Text.allBlank options.serverCode = false) :
    options.validate = .ok options.trimmed :=
  if_neg fun hblank => Bool.eq_false_iff.mp h (Text.trim_eq_empty_iff.mp hblank)

theorem filter_append_new {pending : List Serial} {x : Serial} (hx : x ∉ pending) :
    (pending ++ [x]).filter (· != x) = pending := by
  have hold : pending.filter (· != x) = pending :=
    List.filter_eq_self.mpr fun y hy => bne_iff_ne.mpr (ne_of_mem_of_not_mem hy hx)
  have hnew : [x].filter (· != x) = [] := List.filter_eq_nil_iff.mpr fun y hy => by
    rw [List.mem_singleton.mp hy, bne_self_eq_false]
    exact Bool.false_ne_true
  rw [List.filter_append, hold, hnew, List.append_nil]

theorem footingWith_establish (pending : List Serial) :
    s.establish.1.footingWith pending = s.footingWith pending := by
  cases hfail : s.connector.failEstablish with
  | true =>
    rw [establish_of_fail hfail]
    rfl
  | false =>
    rw [establish_of_ok hfail]
    rfl

theorem footingWith_reject {x : Serial} (hw : ∀ w ∈ s.watches, w.session ≠ x)
    (pending : List Serial) : (s.reject x).footingWith pending = s.footingWith pending := by
  rw [reject_of_unwatched hw]
  rfl

/-- What was established and is rejected at once has never been there. -/
theorem footing_reject (hok : s.connector.failEstablish = false)
    (hpending : s.connector.lastSerial + 1 ∉ s.connector.pending)
    (hwatches : ∀ w ∈ s.watches, w.session ≠ s.connector.lastSerial + 1) :
    (s.establish.1.reject (s.connector.lastSerial + 1)).footing = s.footing := by
  have hestablished : s.establish.1.connector.pending =
      s.connector.pending ++ [s.connector.lastSerial + 1] := by
    rw [establish_of_ok hok]
  have hwatches' : ∀ w ∈ s.establish.1.watches, w.session ≠ s.connector.lastSerial + 1 := by
    rw [establish_of_ok hok]
    exact hwatches
  calc (s.establish.1.reject (s.connector.lastSerial + 1)).footing
      = s.establish.1.footingWith
          (s.establish.1.connector.pending.filter (· != s.connector.lastSerial + 1)) :=
        footingWith_reject hwatches' _
    _ = s.establish.1.footing.footingWith s.connector.pending := by
        rw [hestablished, filter_append_new hpending]
        rfl
    _ = s.footing := footingWith_establish _

/-- **A connect that fails leaves the footing.** -/
theorem footing_connect (hpending : s.connector.lastSerial + 1 ∉ s.connector.pending)
    (hwatches : ∀ w ∈ s.watches, w.session ≠ s.connector.lastSerial + 1) {call : Nat}
    {options : Options} {e : SessionError}
    (he : (s.connect call options).2 = .returned (.error e)) :
    (s.connect call options).1.footing = s.footing := by
  rcases connect_cases s call options with ⟨_, -, hconnect, -⟩ | ⟨-, hfail, hconnect, -⟩ |
    ⟨-, hok, -, hconnect, -⟩ | ⟨-, -, -, hconnect, -⟩
  · rw [hconnect]
    rfl
  · rw [hconnect, establish_of_fail hfail]
    rfl
  · rw [hconnect]
    exact footing_reject hok hpending hwatches
  · rw [hconnect] at he
    dsimp only at he
    split at he <;> cases he

theorem connect_of_blank {options : Options} (h : Text.allBlank options.serverCode = true)
    (call : Nat) : s.connect call options = (s.record Ledger.refuseOptions,
      .returned (.error (.invalidOptions Options.serverCodeRequired))) := by
  rw [connect, validate_of_blank h]

/-- What a connect with a server code may fail with, and when. -/
theorem connect_error {call : Nat} {options : Options} {e : SessionError}
    (h : Text.allBlank options.serverCode = false)
    (he : (s.connect call options).2 = .returned (.error e)) :
    e = .collaborator Connector.rejected ∧ s.connector.failEstablish = true ∨
      e = .alreadyConnected ∧ s.isConnected = true := by
  rcases connect_cases s call options with ⟨e', hvalid, -, -⟩ | ⟨-, hfail, hconnect, -⟩ |
    ⟨-, -, hi, hconnect, -⟩ | ⟨-, -, -, hconnect, -⟩
  · rw [validate_of_not_blank h] at hvalid
    cases hvalid
  · rw [hconnect] at he
    cases he
    exact Or.inl ⟨rfl, hfail⟩
  · rw [hconnect] at he
    cases he
    exact Or.inr ⟨rfl, isConnected_iff.mpr hi⟩
  · rw [hconnect] at he
    dsimp only at he
    split at he <;> cases he

end connects

/-! ## Connects at once -/

/-- The connection of a connect that has not won and has not yet come to its end. -/
def Phase.underWay : Phase → Option Serial
  | established x | lost x => some x
  | _ => none

/-- A connect that has won, whether or not its message is published. -/
def Phase.Wins : Phase → Prop
  | won _ | ended _ (.returned (.ok _)) | ended _ .parked => True
  | _ => False

namespace Race

/-- The connections of those that have not won and have not yet come to their end. -/
def underWay (r : Race) : List Serial := r.contenders.filterMap (·.phase.underWay)

/-- The footing of the session, where the signals of connections under way do not count. -/
def footing (r : Race) : Session :=
  r.session.footingWith (r.session.connector.pending.filter (· ∉ r.underWay))

/-- What holds throughout a race, whatever its connects come to. -/
structure Tidy (r : Race) : Prop where
  held : r.session.hasHandle = true
  quiet : Quiet r.session
  bounded : ∀ w ∈ r.session.watches, w.session ≤ r.session.connector.lastSerial
  pending : ∀ x ∈ r.session.connector.pending, x ≤ r.session.connector.lastSerial
  established : ∀ x ∈ r.underWay, x ≤ r.session.connector.lastSerial
  unwatched : ∀ x ∈ r.underWay, ∀ w ∈ r.session.watches, w.session ≠ x
  distinct : r.underWay.Nodup
  unfired : ∀ c ∈ r.contenders, ∀ x, c.phase = .won x →
    ∀ w ∈ r.session.watches, w.session = x → w.fired = none

section races

variable {r : Race} {i : Nat} {c : Contender}

theorem Tidy.beside (ht : r.Tidy) {s : Session} {p : Phase}
    (hsame : s.footingWith [] = r.session.footingWith []) (hp : ¬ p.Wins)
    (hlast : r.session.connector.lastSerial ≤ s.connector.lastSerial)
    (hpending : ∀ x ∈ s.connector.pending, x ≤ s.connector.lastSerial) {contenders : List Contender}
    (hcontenders : contenders = r.contenders.set i { c with phase := p })
    (hestablished : ∀ x ∈ (Race.mk s contenders).underWay,
      x ≤ s.connector.lastSerial ∧ ∀ w ∈ r.session.watches, w.session ≠ x)
    (hdistinct : (Race.mk s contenders).underWay.Nodup) : (Race.mk s contenders).Tidy := by
  have hof : ∀ {β : Type} (f : Session → β), f (s.footingWith []) = f (r.session.footingWith []) :=
    fun f => congrArg f hsame
  have hwatches : s.watches = r.session.watches := hof watches
  constructor
  case held => exact (hof hasHandle).trans ht.held
  case quiet =>
    intro w hw
    exact ht.quiet w (hwatches ▸ hw)
  case bounded =>
    intro w hw
    exact (ht.bounded w (hwatches ▸ hw)).trans hlast
  case pending => exact hpending
  case established => exact fun x hx => (hestablished x hx).1
  case unwatched =>
    intro x hx w hw
    exact (hestablished x hx).2 w (hwatches ▸ hw)
  case distinct => exact hdistinct
  case unfired =>
    intro d hd x hwon w hw
    rcases mem_of_mem_set (hcontenders ▸ hd) with rfl | hd
    · have hphase : p = .won x := hwon
      rw [hphase] at hp
      exact absurd trivial hp
    · exact ht.unfired d hd x hwon w (hwatches ▸ hw)

theorem underWay_set (hc : r.contenders[i]? = some c) (s : Session) (p : Phase) :
    (c.phase.underWay.toList ++ (Race.mk s (r.contenders.set i { c with phase := p })).underWay).Perm
      (p.underWay.toList ++ r.underWay) :=
  filterMap_set_perm hc { c with phase := p } (·.phase.underWay)

theorem Tidy.aside (ht : r.Tidy) (hc : r.contenders[i]? = some c) {s : Session} {p : Phase}
    (hsame : s.footingWith [] = r.session.footingWith []) (hp : ¬ p.Wins)
    (hlast : s.connector.lastSerial = r.session.connector.lastSerial)
    (hpending : s.connector.pending = r.session.connector.pending)
    (hunder : p.underWay = c.phase.underWay) :
    (Race.mk s (r.contenders.set i { c with phase := p })).Tidy ∧
      (Race.mk s (r.contenders.set i { c with phase := p })).footing = r.footing := by
  have hperm := underWay_set hc s p
  rw [hunder, List.perm_append_left_iff] at hperm
  constructor
  · refine ht.beside hsame hp hlast.ge (fun x hx => ?_) rfl (fun x hx => ?_)
      (hperm.nodup_iff.mpr ht.distinct)
    · rw [hlast]
      exact ht.pending x (hpending ▸ hx)
    · rw [hlast]
      exact ⟨ht.established x (hperm.mem_iff.mp hx), ht.unwatched x (hperm.mem_iff.mp hx)⟩
  · have hlist : s.connector.pending.filter
          (· ∉ (Race.mk s (r.contenders.set i { c with phase := p })).underWay) =
        r.session.connector.pending.filter (· ∉ r.underWay) := by
      rw [hpending]
      exact List.filter_congr fun x _ => decide_eq_decide.mpr (not_congr hperm.mem_iff)
    exact (congrArg s.footingWith hlist).trans (footingWith_congr hsame _)

theorem Tidy.dials (ht : r.Tidy) (hc : r.contenders[i]? = some c) (hp : c.phase = .begun)
    (hok : r.session.connector.failEstablish = false) :
    let x := r.session.connector.lastSerial + 1
    let r' := Race.mk r.session.establish.1 (r.contenders.set i { c with phase := .established x })
    r'.Tidy ∧ r'.footing = r.footing := by
  intro x r'
  have hperm : r'.underWay.Perm (x :: r.underWay) := by
    have hperm := underWay_set hc r.session.establish.1 (.established x)
    rw [hp] at hperm
    exact hperm
  have hlast : r.session.establish.1.connector.lastSerial = x := by
    rw [establish_of_ok hok]
  have hpending : r.session.establish.1.connector.pending = r.session.connector.pending ++ [x] := by
    rw [establish_of_ok hok]
  have hold : ∀ y ∈ r.session.connector.pending, y ≠ x := fun y hy =>
    Nat.ne_of_lt (Nat.lt_succ_of_le (ht.pending y hy))
  constructor
  · refine ht.beside (p := .established x) (footingWith_establish []) id (hlast ▸ Nat.le_succ _)
      (fun y hy => ?_) rfl (fun y hy => ?_)
      (hperm.nodup_iff.mpr (List.nodup_cons.mpr ⟨fun hx => ?_, ht.distinct⟩))
    · rw [hlast]
      rw [hpending, List.mem_append, List.mem_singleton] at hy
      rcases hy with hy | rfl
      · exact Nat.le_succ_of_le (ht.pending y hy)
      · exact Nat.le_refl _
    · rw [hlast]
      rcases List.mem_cons.mp (hperm.mem_iff.mp hy) with rfl | hy
      · exact ⟨Nat.le_refl _, fun w hw => Nat.ne_of_lt (Nat.lt_succ_of_le (ht.bounded w hw))⟩
      · exact ⟨Nat.le_succ_of_le (ht.established y hy), ht.unwatched y hy⟩
    · exact absurd (ht.established x hx) (Nat.not_succ_le_self _)
  · have hlist : r.session.establish.1.connector.pending.filter (· ∉ r'.underWay) =
        r.session.connector.pending.filter (· ∉ r.underWay) := by
      have hnew : [x].filter (· ∉ r'.underWay) = [] := List.filter_eq_nil_iff.mpr fun y hy => by
        rw [List.mem_singleton.mp hy]
        simp [hperm.mem_iff]
      rw [hpending, List.filter_append, hnew, List.append_nil]
      exact List.filter_congr fun y hy => by simp [hperm.mem_iff, hold y hy]
    exact (congrArg _ hlist).trans (footingWith_establish _)

theorem Tidy.rejects (ht : r.Tidy) (hc : r.contenders[i]? = some c) {x : Serial}
    (hp : c.phase = .lost x) :
    let r' := Race.mk (r.session.reject x) (r.contenders.set i { c with phase := .refused x })
    r'.Tidy ∧ r'.footing = r.footing := by
  intro r'
  have hperm : (x :: r'.underWay).Perm r.underWay := by
    have hperm := underWay_set hc (r.session.reject x) (.refused x)
    rw [hp] at hperm
    exact hperm
  have hunwatched := ht.unwatched x (hperm.mem_iff.mp (List.mem_cons_self ..))
  have hpending : (r.session.reject x).connector.pending =
      r.session.connector.pending.filter (· != x) := rfl
  obtain ⟨hnot, hdistinct⟩ := List.nodup_cons.mp (hperm.nodup_iff.mpr ht.distinct)
  have hmem : ∀ y ∈ r'.underWay, y ∈ r.underWay := fun y hy =>
    hperm.mem_iff.mp (List.mem_cons_of_mem _ hy)
  constructor
  · refine ht.beside (p := .refused x) (footingWith_reject hunwatched []) id (Nat.le_refl _)
      (fun y hy => ?_) rfl (fun y hy => ⟨ht.established y (hmem y hy), ht.unwatched y (hmem y hy)⟩)
      hdistinct
    exact ht.pending y (List.mem_of_mem_filter (hpending ▸ hy))
  · have hlist : (r.session.reject x).connector.pending.filter (· ∉ r'.underWay) =
        r.session.connector.pending.filter (· ∉ r.underWay) := by
      rw [hpending, List.filter_filter]
      refine List.filter_congr fun y _ => ?_
      have hiff : y ∈ r.underWay ↔ y = x ∨ y ∈ r'.underWay := by
        rw [← hperm.mem_iff, List.mem_cons]
      by_cases hy : y = x
      · have hx : x ∈ r.underWay := hperm.mem_iff.mp (List.mem_cons_self ..)
        simp [hx, hy]
      · simp [hiff, hy]
    exact (congrArg _ hlist).trans (footingWith_reject hunwatched _)

theorem Tidy.installs (ht : r.Tidy) (hc : r.contenders[i]? = some c) {x : Serial}
    (hp : c.phase = .established x) (hvacant : r.session.active = none) :
    (Race.mk (r.session.install x).1 (r.contenders.set i { c with phase := .won x })).Tidy := by
  obtain ⟨s', hinstall, hcore⟩ := install_of_vacant hvacant x
  obtain ⟨hconnector, -, -, hwatches, hheld⟩ := eq_of_core hcore
  rw [hinstall]
  dsimp only
  set r' := Race.mk s' (r.contenders.set i { c with phase := .won x })
  have hconnector : s'.connector = r.session.connector := hconnector
  have hperm : (x :: r'.underWay).Perm r.underWay := by
    have hperm := underWay_set hc s' (.won x)
    rw [hp] at hperm
    exact hperm
  have hx : x ∈ r.underWay := hperm.mem_iff.mp (List.mem_cons_self ..)
  obtain ⟨hnot, hdistinct⟩ := List.nodup_cons.mp (hperm.nodup_iff.mpr ht.distinct)
  have hmem : ∀ y ∈ r'.underWay, y ∈ r.underWay := fun y hy =>
    hperm.mem_iff.mp (List.mem_cons_of_mem _ hy)
  -- The watch over the new session is the only one that was not there before.
  have hsplit : ∀ w ∈ s'.watches, w ∈ r.session.watches ∨ w = ⟨x, false, none⟩ := by
    intro w hw
    rw [hwatches, List.mem_append, List.mem_singleton] at hw
    exact hw
  constructor
  case held => exact hheld.trans ht.held
  case quiet =>
    intro w hw
    rcases hsplit w hw with hw | rfl
    · exact ht.quiet w hw
    · rfl
  case bounded =>
    intro w hw
    rw [show r'.session.connector = _ from hconnector]
    rcases hsplit w hw with hw | rfl
    · exact ht.bounded w hw
    · exact ht.established x hx
  case pending =>
    rw [show r'.session.connector = _ from hconnector]
    exact ht.pending
  case established =>
    rw [show r'.session.connector = _ from hconnector]
    exact fun y hy => ht.established y (hmem y hy)
  case unwatched =>
    intro y hy w hw
    rcases hsplit w hw with hw | rfl
    · exact ht.unwatched y (hmem y hy) w hw
    · exact (ne_of_mem_of_not_mem hy hnot).symm
  case distinct => exact hdistinct
  case unfired =>
    intro d hd y hwon w hw hsession
    rcases hsplit w hw with hw | rfl
    · rcases mem_of_mem_set hd with rfl | hd
      · cases hwon
        exact absurd hsession (ht.unwatched _ hx w hw)
      · exact ht.unfired d hd y hwon w hw hsession
    · rfl

theorem announce_starts (s : Session) (who : LifecycleCall) (m : Message) :
    let s' := (s.announce who m).1
    s'.connector = s.connector ∧ s'.hasHandle = s.hasHandle ∧
      (s'.watches = s.watches ∨ s'.watches = s.watches.map (·.start who)) := by
  intro s'
  cases hresult : (s.messages.publish who m).result with
  | returned n =>
    obtain ⟨s₁, hannounce, hcore⟩ := announce_of_returned hresult
    obtain ⟨hconnector, -, -, hwatches, hheld⟩ := eq_of_core hcore
    have hlife := life_published { s with messages := (s.messages.publish who m).hub } who
    rw [show s' = s₁ from congrArg Prod.fst hannounce]
    refine ⟨hconnector.trans ?_, hheld.trans (congrArg Life.hasHandle hlife),
      Or.inr (hwatches.trans (congrArg Life.watches hlife))⟩
    cases who <;> rfl
  | parked =>
    obtain ⟨s₁, hannounce, hcore⟩ := announce_of_parked hresult
    obtain ⟨hconnector, -, -, hwatches, hheld⟩ := eq_of_core hcore
    rw [show s' = s₁ from congrArg Prod.fst hannounce]
    exact ⟨hconnector, hheld, Or.inl hwatches⟩

theorem Tidy.announces (ht : r.Tidy) (hc : r.contenders[i]? = some c) {x : Serial}
    (hp : c.phase = .won x) (outcome : Outcome (Except SessionError Serial)) :
    (Race.mk (r.session.announce (.connect c.call x) (.status Message.connectedText)).1.settle
      (r.contenders.set i { c with phase := .ended (some x) outcome })).Tidy := by
  set who : LifecycleCall := .connect c.call x with hwho
  set s' := (r.session.announce who (.status Message.connectedText)).1
  obtain ⟨hconnector, hheld, hwatches⟩ : s'.connector = r.session.connector ∧
      s'.hasHandle = r.session.hasHandle ∧ _ := announce_starts _ _ _
  -- Each watch is still that over its session, with the signal it had, and ready only if it was.
  have hsame : ∀ w ∈ s'.watches, ∃ v ∈ r.session.watches, w.session = v.session ∧
      w.fired = v.fired ∧ isReady w = false := by
    intro w hw
    rcases hwatches with hwatches | hwatches
    · rw [hwatches] at hw
      exact ⟨w, hw, rfl, rfl, ht.quiet w hw⟩
    · rw [hwatches] at hw
      obtain ⟨v, hv, rfl⟩ := List.mem_map.mp hw
      refine ⟨v, hv, Watch.session_start, Watch.fired_start, ?_⟩
      by_cases hx : v.session = x
      · have hfired := ht.unfired c (List.mem_of_getElem? hc) x hp v hv hx
        rw [isReady, Watch.fired_start, hfired, Option.isSome_none, Bool.and_false]
      · rw [show v.start who = v from if_neg hx]
        exact ht.quiet v hv
  have hquiet : Quiet s' := fun w hw => (hsame w hw).choose_spec.2.2.2
  have hsettle : s'.settle = s' := by
    rw [settle_of_quiet hquiet]
    exact releaseIfUnheld_of_kept (Or.inr (isHeld_of_hasHandle (hheld.trans ht.held)))
  rw [hsettle]
  set r' := Race.mk s' (r.contenders.set i { c with phase := .ended (some x) outcome })
  have hperm : r'.underWay.Perm r.underWay :=
    filterMap_set_perm_of_eq hc (f := (·.phase.underWay)) (by rw [hp]; rfl)
  constructor
  case held => exact hheld.trans ht.held
  case quiet => exact hquiet
  case bounded =>
    intro w hw
    obtain ⟨v, hv, hsession, -, -⟩ := hsame w hw
    rw [hsession, show r'.session.connector = _ from hconnector]
    exact ht.bounded v hv
  case pending =>
    rw [show r'.session.connector = _ from hconnector]
    exact ht.pending
  case established =>
    rw [show r'.session.connector = _ from hconnector]
    exact fun y hy => ht.established y (hperm.mem_iff.mp hy)
  case unwatched =>
    intro y hy w hw
    obtain ⟨v, hv, hsession, -, -⟩ := hsame w hw
    rw [hsession]
    exact ht.unwatched y (hperm.mem_iff.mp hy) v hv
  case distinct => exact hperm.nodup_iff.mpr ht.distinct
  case unfired =>
    intro d hd y hwon w hw hw'
    obtain ⟨v, hv, hsession, hfired, -⟩ := hsame w hw
    rcases mem_of_mem_set hd with rfl | hd
    · cases hwon
    · rw [hfired]
      exact ht.unfired d hd y hwon v hv (hsession.symm.trans hw')

/-- The first turn of a connect, after which it has been refused, has failed or is under way. -/
theorem Tidy.begins (ht : r.Tidy) (hc : r.contenders[i]? = some c) (hp : c.phase = .begun) :
    (r.turn i).Tidy ∧ (r.turn i).footing = r.footing := by
  have hnone : ∀ e, (Phase.ended none (.returned (.error e))).underWay = c.phase.underWay := by
    rw [hp]
    exact fun _ => rfl
  rw [turn_of_some hc, Contender.proceed, hp]
  dsimp only
  cases c.options.validate with
  | error e => exact ht.aside hc (s := r.session.record Ledger.refuseOptions) rfl id rfl rfl (hnone e)
  | ok o =>
    cases hfail : r.session.connector.failEstablish with
    | true =>
      have hfailed := ht.aside hc (footingWith_establish []) id
        (by rw [establish_of_fail hfail]; rfl) (by rw [establish_of_fail hfail]; rfl)
        (hnone (.collaborator Connector.rejected))
      rw [establish_of_fail hfail] at hfailed ⊢
      exact hfailed
    | false =>
      rw [(establish_spec hfail).1]
      exact ht.dials hc hp hfail

/-- **A turn of a connect that does not win leaves the footing.** -/
theorem Tidy.turn (ht : r.Tidy) (i : Nat) :
    (r.turn i).Tidy ∧ ((∀ c, (r.turn i).contenders[i]? = some c → ¬ c.phase.Wins) →
      (r.turn i).footing = r.footing) := by
  cases hc : r.contenders[i]? with
  | none =>
    rw [Race.turn, hc]
    exact ⟨ht, fun _ => rfl⟩
  | some c =>
    have hself : (r.turn i).contenders[i]? = some { c with phase := (c.proceed r.session).2 } := by
      obtain ⟨hlt, -⟩ := List.getElem?_eq_some_iff.mp hc
      rw [turn_of_some hc]
      exact List.getElem?_set_self hlt
    suffices h : (r.turn i).Tidy ∧
        (¬ (c.proceed r.session).2.Wins → (r.turn i).footing = r.footing) from
      ⟨h.1, fun hno => h.2 (hno _ hself)⟩
    cases hp : c.phase with
    | begun =>
      obtain ⟨htidy, hfooting⟩ := ht.begins hc hp
      exact ⟨htidy, fun _ => hfooting⟩
    | established x =>
      rw [turn_of_some hc, Contender.proceed, hp]
      dsimp only
      cases hactive : r.session.active with
      | none =>
        obtain ⟨s', hinstall, -⟩ := install_of_vacant hactive x
        have htidy := ht.installs hc hp hactive
        rw [hinstall] at htidy ⊢
        exact ⟨htidy, fun hno => absurd trivial hno⟩
      | some a =>
        rw [install_of_connected (by rw [hactive]; rfl)]
        obtain ⟨htidy, hfooting⟩ := ht.aside hc (s := r.session) (p := .lost x) rfl id rfl rfl
          (by rw [hp]; rfl)
        exact ⟨htidy, fun _ => hfooting⟩
    | lost x =>
      rw [turn_of_some hc, Contender.proceed, hp]
      obtain ⟨htidy, hfooting⟩ := ht.rejects hc hp
      exact ⟨htidy, fun _ => hfooting⟩
    | won x =>
      rw [turn_of_some hc, Contender.proceed, hp]
      dsimp only
      have htidy := ht.announces hc hp
      split
      · rename_i s' hannounce
        rw [hannounce] at htidy
        exact ⟨htidy _, fun hno => absurd trivial hno⟩
      · rename_i s' hannounce
        rw [hannounce] at htidy
        exact ⟨htidy _, fun hno => absurd trivial hno⟩
    | ended x outcome =>
      have hstays : c.proceed r.session = (r.session, c.phase) := by
        rw [Contender.proceed, hp]
      have hsame : r.turn i = r := by
        obtain ⟨hlt, rfl⟩ := List.getElem?_eq_some_iff.mp hc
        rw [turn_of_some hc, hstays]
        exact congrArg (Race.mk r.session) (List.set_getElem_self hlt)
      rw [hsame]
      exact ⟨ht, fun _ => rfl⟩

theorem Tidy.run (ht : r.Tidy) (schedule : List Nat) : (r.run schedule).Tidy := by
  induction schedule generalizing r with
  | nil => exact ht
  | cons i schedule ih => exact ih (ht.turn i).1

/-- A connect that has won has won for good. -/
theorem wins_proceed {s : Session} (h : c.phase.Wins) : (c.proceed s).2.Wins := by
  unfold Contender.proceed
  cases hp : c.phase with
  | won x =>
    dsimp only
    split <;> trivial
  | ended x outcome =>
    rw [hp] at h
    exact h
  | _ =>
    rw [hp] at h
    exact h.elim

theorem wins_run (hc : r.contenders[i]? = some c) (h : c.phase.Wins) (schedule : List Nat) :
    ∃ d, (r.run schedule).contenders[i]? = some d ∧ d.phase.Wins := by
  induction schedule generalizing r c with
  | nil => exact ⟨c, hc, h⟩
  | cons j schedule ih =>
    cases hj : r.contenders[j]? with
    | none =>
      have hsame : r.turn j = r := by rw [Race.turn, hj]
      rw [run_cons, hsame]
      exact ih hc h
    | some e =>
      rw [run_cons, turn_of_some hj]
      by_cases hij : j = i
      · subst hij
        obtain ⟨hlt, -⟩ := List.getElem?_eq_some_iff.mp hc
        rw [hc, Option.some.injEq] at hj
        exact ih (List.getElem?_set_self hlt) (hj ▸ wins_proceed h)
      · exact ih ((List.getElem?_set_ne hij).trans hc) h

/-- **Each turn of a connect that fails leaves the footing.** -/
theorem Tidy.footing_turn (ht : r.Tidy) {schedule : List Nat} {d : Contender} {x : Option Serial}
    {e : SessionError} (hd : ((r.turn i).run schedule).contenders[i]? = some d)
    (he : d.phase = .ended x (.returned (.error e))) : (r.turn i).footing = r.footing := by
  refine (ht.turn i).2 fun c hc hwins => ?_
  obtain ⟨d', hd', hwins'⟩ := wins_run hc hwins schedule
  rw [hd, Option.some.injEq] at hd'
  rw [← hd', he] at hwins'
  exact hwins'

theorem tidy_start {s : Session} (ha : Accounted [] s.life) (hq : Quiet s)
    (hheld : s.hasHandle = true) (calls : List (Nat × Options)) : (Race.start s calls).Tidy := by
  have hbegun : ∀ c ∈ (Race.start s calls).contenders, c.phase = .begun := by
    intro c hc
    obtain ⟨p, -, rfl⟩ := List.mem_map.mp hc
    rfl
  have hnone : (Race.start s calls).underWay = [] := by
    refine List.filterMap_eq_nil_iff.mpr fun c hc => ?_
    rw [hbegun c hc]
    rfl
  constructor
  case held => exact hheld
  case quiet => exact hq
  case bounded => exact fun w hw => ha.bounded w hw
  case pending => exact fun x hx => (ha.serial x (ha.pending x hx)).2
  case established => rw [hnone]; exact fun _ hx => nomatch hx
  case unwatched => rw [hnone]; exact fun _ hx => nomatch hx
  case distinct => rw [hnone]; exact List.nodup_nil
  case unfired =>
    intro c hc x hwon
    rw [hbegun c hc] at hwon
    cases hwon

end races

end Race

end Session

end Switchboard
