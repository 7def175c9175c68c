import Switchboard.Proofs.Session.Deeds

/-!
# A lifecycle call makes one transition

While somebody holds the state and no watch can go on, a connect that wins makes one transition, and
so does a disconnect that finds a session. Settling adds nothing to them (`settle_of_quiet`), except
that the watch over a session that was taken away is dismissed (`settle_of_vacant`).

**Main statements** (`connect_outcome`, `disconnect_outcome`). What either call comes to, and which
transitions it makes.
-/

namespace Switchboard.Session

section settling

variable {s : Session}

theorem settleLog_of_quiet (hq : Quiet s) : s.settleLog = [] := by
  obtain ⟨-, hquiet, -⟩ := releaseIfUnheld_turns .disown (fun _ => none)
    (t := ⟨s, [], [], [], []⟩) rfl
  have hready : s.releaseIfUnheld.watches.filter isReady = [] :=
    List.filter_eq_nil_iff.mpr fun w hw => by
      rw [hquiet hq w hw]
      exact Bool.false_ne_true
  rw [settleLog, runWatchesLog, hready]
  rfl

theorem watches_of_vacant (hi : s.installed = none) (watches : List Watch) :
    watchesLog watches s = [] ∧
      (watches.foldl (fun s w =>
        match w.fired with
        | some cause => s.endSession w.session cause
        | none => s) s) = s := by
  induction watches with
  | nil => exact ⟨rfl, rfl⟩
  | cons w rest ih =>
    have hne : s.installed ≠ some w.session := by
      rw [hi]
      exact nofun
    rw [watchesLog, List.foldl_cons]
    cases w.fired with
    | none => exact ih
    | some cause =>
      dsimp only
      rw [endSessionLog_of_ne hne, endSession_of_ne hne]
      exact ih

theorem settle_of_vacant (hi : s.installed = none) (hk : Kept s) :
    s.settle = { s with watches := s.watches.filter (!isReady ·) } ∧ s.settleLog = [] := by
  set s' : Session := { s with watches := s.watches.filter (!isReady ·) }
  obtain ⟨hlog, hfold⟩ := watches_of_vacant (s := s') hi (s.watches.filter isReady)
  have hrun : s.runWatches = s' := hfold
  have hk' : Kept s' := hk
  rw [settle, settleLog, releaseIfUnheld_of_kept hk, hrun, releaseIfUnheld_of_kept hk']
  exact ⟨rfl, hlog⟩

end settling

section outcomes

variable {owner : Nat → Option CauseHandle} {t : Scene}

theorem quiet_joining (hv : Valid owner t) (hq : Quiet t.session)
    (hok : t.session.connector.failEstablish = false) (hi : t.session.installed = none)
    (call : Nat) :
    Quiet (t.session.establish.1.joining call (t.session.connector.lastSerial + 1)).after := by
  set x := t.session.connector.lastSerial + 1
  set τ := t.session.establish.1.joining call x
  have hl : τ.session.life = t.session.life.establish.install := life_joining call hok hi
  have hwatches : τ.session.watches = t.session.watches ++ [⟨x, false, none⟩] :=
    congrArg Life.watches hl
  have hgood : τ.session.messages.Good := by
    rw [show τ.session.messages = t.session.messages from congrArg Life.messages hl]
    exact hv.accounted.good
  have hbefore : Quiet τ.session := by
    intro w hw
    rw [hwatches] at hw
    rcases List.mem_append.mp hw with hw | hw
    · exact hq w hw
    · rw [List.mem_singleton.mp hw]
      rfl
  -- If the publish returns, the watch over the new session starts, whose signal is pending.
  have hstart : ∀ w ∈ τ.session.watches, isReady (w.start τ.caller) = false := by
    intro w hw
    rw [hwatches] at hw
    rcases List.mem_append.mp hw with hw' | hw'
    · have hne : w.session ≠ x := hv.accounted.fresh.2.2 w (List.mem_append_right _ hw')
      have hsame : w.start τ.caller = w := if_neg hne
      rw [hsame]
      exact hq w hw'
    · rw [List.mem_singleton.mp hw']
      show isReady (if x = x then _ else _) = false
      rw [if_pos rfl]
      rfl
  obtain ⟨hub, ⟨-, hlife⟩ | ⟨-, hlife⟩⟩ := life_announce hgood τ.caller τ.message
  · intro w hw
    rw [show τ.after.watches = τ.session.watches.map (·.start τ.caller) from
      congrArg Life.watches hlife] at hw
    obtain ⟨u, hu, rfl⟩ := List.mem_map.mp hw
    exact hstart u hu
  · intro w hw
    rw [show τ.after.watches = τ.session.watches from congrArg Life.watches hlife] at hw
    exact hbefore w hw

theorem Occurs.hasHandle {step : Step} {call : Nat} {τ : Transition} {ready : List Watch}
    (ho : Occurs step call t τ ready) (hv : Valid owner t) (hne : step ≠ .disown)
    (hne' : ∀ name, step ≠ .dropClone name) : τ.after.hasHandle = t.session.hasHandle :=
  (ho.turns hv).hasHandle hne hne'

variable (hv : Valid owner t) (hq : Quiet t.session) (hh : t.session.hasHandle = true)

include hv hq hh

/-- **A connect is refused, or fails, or loses, or makes one transition.** -/
theorem connect_outcome (call : Nat) (options : Options) :
    let s := t.session
    let x := s.connector.lastSerial + 1
    let τ := s.establish.1.joining call x
    (∃ e, options.validate = .error e ∧
        s.connect call options = (s.record Ledger.refuseOptions, .returned (.error e)) ∧
        s.connectLog call options = []) ∨
      ((∃ o, options.validate = .ok o) ∧ s.connector.failEstablish = true ∧
        s.connect call options =
          (s.establish.1, .returned (.error (.collaborator Connector.rejected))) ∧
        s.connectLog call options = []) ∨
      ((∃ o, options.validate = .ok o) ∧ s.connector.failEstablish = false ∧ s.installed ≠ none ∧
        s.connect call options =
          (s.establish.1.reject x, .returned (.error .alreadyConnected)) ∧
        s.connectLog call options = []) ∨
      (∃ o, options.validate = .ok o) ∧ s.connector.failEstablish = false ∧ s.installed = none ∧
        s.connect call options =
          (τ.after, if τ.returned then .returned (.ok x) else .parked) ∧
        s.connectLog call options = [τ] := by
  intro s x τ
  rcases connect_cases s call options with h | h | h | ⟨hvalid, hok, hi, hconnect, hlog⟩
  · exact Or.inl h
  · exact Or.inr (Or.inl h)
  · exact Or.inr (Or.inr (Or.inl h))
  · have hquiet : Quiet τ.after := quiet_joining hv hq hok hi call
    have hoccurs : Occurs (.connect options) call t τ t.ready := .join trivial hh hok hi
    have hheld : Kept τ.after :=
      Or.inr (isHeld_of_hasHandle ((hoccurs.hasHandle hv (by simp) (by simp)).trans hh))
    have hsettle : τ.after.settle = τ.after := by
      rw [settle_of_quiet hquiet, releaseIfUnheld_of_kept hheld]
    rw [hconnect, hlog, hsettle, settleLog_of_quiet hquiet]
    exact Or.inr (Or.inr (Or.inr ⟨hvalid, hok, hi, rfl, rfl⟩))

omit hq in
/-- **A disconnect finds no session, or makes one transition.** -/
theorem disconnect_outcome (call : Nat) :
    let s := t.session
    (s.active = none ∧ s.disconnect call = (s, .returned (.error .notConnected)) ∧
        s.disconnectLog call = []) ∨
      ∃ x fault, s.installed = some x ∧
        let τ := s.leaving call x
        τ.caller = .disconnect call fault ∧ τ.message = disconnectNotice fault ∧
          s.disconnect call = ({ τ.after with watches := τ.after.watches.filter (!isReady ·) },
            if τ.returned then .returned (disconnectResult fault) else .parked) ∧
          s.disconnectLog call = [τ] := by
  intro s
  rcases disconnect_cases s call with h | ⟨a, fault, ha, hcaller, hmessage, hdisconnect, hlog⟩
  · exact Or.inl h
  · have hi : s.installed = some a.session := by
      rw [installed, ha]
      rfl
    set τ := s.leaving call a.session with hτ
    have hoccurs : Occurs .disconnect call t τ t.ready := .leave rfl hi
    have hheld : Kept τ.after :=
      Or.inr (isHeld_of_hasHandle ((hoccurs.hasHandle hv (by simp) (by simp)).trans hh))
    have hvacant : τ.after.installed = none := by
      obtain ⟨hafter, ⟨_, hi', -⟩ | ⟨_, _, _, -, -, -, hbooks⟩⟩ := hoccurs.books
      · cases hi.symm.trans hi'
      · rw [hbooks] at hafter
        exact congrArg Books.installed hafter
    obtain ⟨hsettle, hsettleLog⟩ := settle_of_vacant hvacant hheld
    refine Or.inr ⟨a.session, fault, hi, hcaller, hmessage, ?_, ?_⟩
    · rw [hdisconnect, hsettle]
    · rw [hlog, hsettleLog]

end outcomes

end Switchboard.Session
