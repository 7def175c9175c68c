import Switchboard.Session.Lifecycle

/-!
# Connects at once

Any number of connects made at the same time, whose phases come in any order.

**Phases** (`Contender.proceed`). A connect has its connection established before it looks whether a
session is installed, so there may be many fresh connections at once. It then finds that it has won
or lost. If it lost it tears its own connection down, and if it won it publishes its message.

**Races** (`Race.run`). A schedule names, turn by turn, the connect that proceeds.

**Main statements** (`Race.run_thrice`, `connectAll_eq_race`). Three turns one after another are
what `connect` does, and connects that follow one another are what `connectAll` does.
-/

namespace Switchboard.Session

/-! ## Contenders -/

/-- How far a connect has come. -/
inductive Phase where
  | begun
  /-- Its connection is established. -/
  | established (session : Serial)
  /-- It found a session installed. -/
  | lost (session : Serial)
  /-- It installed its session. -/
  | won (session : Serial)
  /-- It has come to an end, with the connection that it had established. -/
  | ended (session : Option Serial) (outcome : Outcome (Except SessionError Serial))

namespace Phase

/-- The connection that was established. -/
def connection : Phase → Option Serial
  | begun => none
  | established x | lost x | won x => some x
  | ended x _ => x

/-- What the connect came to. -/
def outcome : Phase → Option (Outcome (Except SessionError Serial))
  | ended _ outcome => some outcome
  | _ => none

/-- The connection that was torn down again. -/
def tornDown : Phase → Option Serial
  | ended x (.returned (.error _)) => x
  | _ => none

/-- The end of a connect that found a session installed. -/
abbrev refused (x : Serial) : Phase := ended (some x) (.returned (.error .alreadyConnected))

/-- The turns that are left. -/
def left : Phase → Nat
  | begun => 3
  | established _ => 2
  | lost _ | won _ => 1
  | ended _ _ => 0

/-- A connect that has not won and will not win any more. -/
def Loses : Phase → Prop
  | begun | established _ | lost _ => True
  | ended (some _) outcome => outcome = .returned (.error .alreadyConnected)
  | _ => False

end Phase

/-- One of several connects made at once. -/
structure Contender where
  call : Nat
  options : Options
  phase : Phase

/-- The next phase of a connect. -/
def Contender.proceed (s : Session) (c : Contender) : Session × Phase :=
  match c.phase with
  | .begun =>
    match c.options.validate with
    | .error e => (s.record Ledger.refuseOptions, .ended none (.returned (.error e)))
    | .ok _ =>
      match s.establish with
      | (s, .error e) => (s, .ended none (.returned (.error e)))
      | (s, .ok x) => (s, .established x)
  | .established x =>
    match s.install x with
    | (s, false) => (s, .lost x)
    | (s, true) => (s, .won x)
  | .lost x => (s.reject x, .ended (some x) (.returned (.error .alreadyConnected)))
  | .won x =>
    match s.announce (.connect c.call x) (.status Message.connectedText) with
    | (s, true) => (s.settle, .ended (some x) (.returned (.ok x)))
    | (s, false) => (s.settle, .ended (some x) .parked)
  | .ended x outcome => (s, .ended x outcome)

/-! ## Races -/

/-- A session and the connects made on it at once. -/
structure Race where
  session : Session
  contenders : List Contender

namespace Race

/-- Some calls begin to connect, each with its options. -/
def start (s : Session) (calls : List (Nat × Options)) : Race :=
  ⟨s, calls.map fun c => ⟨c.1, c.2, .begun⟩⟩

/-- The next turn is that of contender number `i`. -/
def turn (r : Race) (i : Nat) : Race :=
  match r.contenders[i]? with
  | none => r
  | some c =>
    let (s, phase) := c.proceed r.session
    ⟨s, r.contenders.set i { c with phase }⟩

/-- The turns of a schedule. -/
def run (r : Race) (schedule : List Nat) : Race := schedule.foldl turn r

/-- The connections established, by contender. -/
def connections (r : Race) : List Serial := r.contenders.filterMap (·.phase.connection)

/-- The connections torn down again, by contender. -/
def rejected (r : Race) : List Serial := r.contenders.filterMap (·.phase.tornDown)

variable {r : Race} {i : Nat} {c : Contender}

theorem turn_of_some (h : r.contenders[i]? = some c) :
    r.turn i = ⟨(c.proceed r.session).1,
      r.contenders.set i { c with phase := (c.proceed r.session).2 }⟩ := by
  rw [turn, h]

theorem run_cons (r : Race) (i : Nat) (schedule : List Nat) :
    r.run (i :: schedule) = (r.turn i).run schedule := rfl

end Race

/-! ## One after another -/

section sequential

/-- The phase that follows, with the session and the contender together. -/
def Contender.advance (p : Session × Contender) : Session × Contender :=
  ((p.2.proceed p.1).1, { p.2 with phase := (p.2.proceed p.1).2 })

/-- A connect is its three phases one after another. -/
theorem Contender.advance_thrice (s : Session) (call : Nat) (options : Options) :
    ∃ x, advance (advance (advance (s, ⟨call, options, .begun⟩))) =
      ((s.connect call options).1, ⟨call, options, .ended x (s.connect call options).2⟩) := by
  have hended : ∀ (s : Session) (x : Option Serial) (outcome : Outcome (Except SessionError Serial)),
      advance (s, ⟨call, options, .ended x outcome⟩) = (s, ⟨call, options, .ended x outcome⟩) :=
    fun _ _ _ => rfl
  unfold connect
  cases hvalid : options.validate with
  | error e =>
    have hfirst : advance (s, ⟨call, options, .begun⟩) =
        (s.record Ledger.refuseOptions, ⟨call, options, .ended none (.returned (.error e))⟩) := by
      simp only [advance, proceed, hvalid]
    rw [hfirst, hended, hended]
    exact ⟨none, rfl⟩
  | ok o =>
    rcases hest : s.establish with ⟨s₁, e | x⟩
    · have hfirst : advance (s, ⟨call, options, .begun⟩) =
          (s₁, ⟨call, options, .ended none (.returned (.error e))⟩) := by
        simp only [advance, proceed, hvalid, hest]
      rw [hfirst, hended, hended]
      exact ⟨none, rfl⟩
    · have hfirst : advance (s, ⟨call, options, .begun⟩) =
          (s₁, ⟨call, options, .established x⟩) := by
        simp only [advance, proceed, hvalid, hest]
      rw [hfirst]
      dsimp only
      refine ⟨some x, ?_⟩
      rcases hinstall : s₁.install x with ⟨s₂, _ | _⟩
      · simp only [advance, proceed, hinstall]
      · rcases hannounce : s₂.announce (.connect call x) (.status Message.connectedText) with
          ⟨s₃, _ | _⟩
        · simp only [advance, proceed, hinstall, hannounce]
        · simp only [advance, proceed, hinstall, hannounce]

theorem Race.run_thrice (r : Race) {i call : Nat} {options : Options}
    (h : r.contenders[i]? = some ⟨call, options, .begun⟩) :
    ∃ x, r.run [i, i, i] = ⟨(r.session.connect call options).1,
      r.contenders.set i ⟨call, options, .ended x (r.session.connect call options).2⟩⟩ := by
  obtain ⟨hi, -⟩ := List.getElem?_eq_some_iff.mp h
  have hturn : ∀ (s : Session) (c : Contender), (Race.mk s (r.contenders.set i c)).turn i =
      ⟨(Contender.advance (s, c)).1, r.contenders.set i (Contender.advance (s, c)).2⟩ := by
    intro s c
    have hc : (Race.mk s (r.contenders.set i c)).contenders[i]? = some c := List.getElem?_set_self hi
    rw [Race.turn_of_some hc]
    exact congrArg (Race.mk _) (List.set_set ..)
  have hstart : r = ⟨r.session, r.contenders.set i ⟨call, options, .begun⟩⟩ := by
    rw [List.getElem?_eq_some_iff] at h
    rw [← h.2, List.set_getElem_self]
  obtain ⟨x, hthrice⟩ := Contender.advance_thrice r.session call options
  refine ⟨x, ?_⟩
  show ((r.turn i).turn i).turn i = _
  conv => lhs; rw [hstart]
  rw [hturn, hturn, hturn, hthrice]

/-- The schedule in which some calls come one after another, from number `k` on. -/
def oneByOne (k : Nat) : Nat → List Nat
  | 0 => []
  | n + 1 => k :: k :: k :: oneByOne (k + 1) n

theorem connectAll_eq_run (s : Session) (call : Nat) (options : Options) (done : List Contender)
    (n : Nat) :
    let r := (Race.mk s (done ++ List.replicate n ⟨call, options, .begun⟩)).run
      (oneByOne done.length n)
    r.session = (s.connectAll call options n).1 ∧
      r.contenders.map (·.phase.outcome) =
        done.map (·.phase.outcome) ++ (s.connectAll call options n).2.map some := by
  induction n generalizing s done with
  | zero => exact ⟨rfl, by simp [Race.run, connectAll, oneByOne]⟩
  | succ n ih =>
    intro r
    have hat : (Race.mk s (done ++ List.replicate (n + 1)
        ⟨call, options, .begun⟩)).contenders[done.length]? = some ⟨call, options, .begun⟩ := by
      simp [List.replicate_succ]
    obtain ⟨x, hfirst⟩ := Race.run_thrice _ hat
    have hrun : r = ((Race.mk s (done ++ List.replicate (n + 1) ⟨call, options, .begun⟩)).run
        [done.length, done.length, done.length]).run (oneByOne (done.length + 1) n) := rfl
    have hset : (done ++ List.replicate (n + 1) (⟨call, options, .begun⟩ : Contender)).set done.length
        ⟨call, options, .ended x (s.connect call options).2⟩ =
        (done ++ [⟨call, options, .ended x (s.connect call options).2⟩]) ++
          List.replicate n ⟨call, options, .begun⟩ := by
      simp [List.replicate_succ]
    obtain ⟨hsession, houtcomes⟩ := ih (s.connect call options).1
      (done ++ [⟨call, options, .ended x (s.connect call options).2⟩])
    rw [List.length_append, List.length_singleton] at hsession houtcomes
    rw [hrun, hfirst]
    dsimp only
    rw [hset, hsession, houtcomes, connectAll]
    refine ⟨rfl, ?_⟩
    simp [Phase.outcome]

/-- Connects made at once for one call are a race in which they come one after another. -/
theorem connectAll_eq_race (s : Session) (call : Nat) (options : Options) (n : Nat) :
    let r := (Race.start s (List.replicate n (call, options))).run (oneByOne 0 n)
    r.session = (s.connectAll call options n).1 ∧
      r.contenders.map (·.phase.outcome) = (s.connectAll call options n).2.map some := by
  have h := connectAll_eq_run s call options [] n
  rw [List.nil_append, List.map_nil, List.nil_append] at h
  rw [Race.start, List.map_replicate]
  exact h

end sequential

end Switchboard.Session
