import Switchboard.Queue

/-!
# What one operation does to a queue

Every operation on a settled queue is one of a few moves, which say what becomes of the values, of
the two lines and of the calls in them.

**The view** (`Queue.view`). A queue is looked at through lists: the values, the pushes and the pops
that wait, each from the oldest to the newest.

**Settled queues** (`View.Settled`). A push waits only on a full open queue and a pop only on an
empty open one.

**Main statements** (`Step.moves`, `Move.settled`). An operation on a settled queue is a move, and a
move leaves a settled queue.
-/

namespace Switchboard.Queue

variable {π ρ α : Type}

/-! ## Steps -/

/-- An operation on a queue. -/
inductive Step (α : Type) where
  | push (v : α)
  | tryPush (v : α)
  | pop
  | tryPop
  | close
  | retire
deriving DecidableEq, Repr

/-- What a step comes to: the value it stored and the value it gave to its caller, whether its
caller waits, and the waiting calls that it released. -/
structure Deed (π ρ α : Type) where
  stored : Option α
  taken : Option α
  parked : Bool
  released : List (Release π ρ α)

/-- The value of a push that returned. -/
def storedBy (v : α) : Outcome Bool → Option α
  | .returned true => some v
  | .returned false | .parked => none

/-- The value that a pop returned with. -/
def takenBy : Outcome (Option α) → Option α
  | .returned v => v
  | .parked => none

/-- Whether a call waits. -/
def isParked {β : Type} : Outcome β → Bool
  | .parked => true
  | .returned _ => false

/-- A step whose call is named by `pusher` among the pushes and by `popper` among the pops. -/
def Step.act (q : Queue π ρ α) (pusher : π) (popper : ρ) : Step α → Queue π ρ α × Deed π ρ α
  | push v =>
    let reply := q.push pusher v
    (reply.queue, ⟨storedBy v reply.result, none, isParked reply.result, reply.released⟩)
  | tryPush v =>
    let reply := q.tryPush v
    (reply.queue, ⟨reply.result.toOption.map fun _ => v, none, false, reply.released⟩)
  | pop =>
    let reply := q.pop popper
    (reply.queue, ⟨none, takenBy reply.result, isParked reply.result, reply.released⟩)
  | tryPop =>
    let reply := q.tryPop
    (reply.queue, ⟨none, reply.result, false, reply.released⟩)
  | close =>
    let reply := q.close
    (reply.queue, ⟨none, none, false, reply.released⟩)
  | retire =>
    let reply := q.retire
    (reply.queue, ⟨none, none, false, reply.released⟩)

/-- The value that a step wants to store. -/
def Step.value? : Step α → Option α
  | push v | tryPush v => some v
  | pop | tryPop | close | retire => none

/-- Whether a step wants to take a value. -/
def Step.takes : Step α → Bool
  | pop | tryPop => true
  | push _ | tryPush _ | close | retire => false

/-! ## The view -/

/-- A queue as lists. -/
structure View (π ρ α : Type) where
  capacity : Nat
  closed : Bool
  items : List α
  pushers : List (π × α)
  poppers : List ρ

def view (q : Queue π ρ α) : View π ρ α where
  capacity := q.capacity
  closed := q.isClosed
  items := q.buffer.items.toList
  pushers := q.pushers.toList
  poppers := q.poppers.toList

namespace View

/-- Nobody waits who could go on. -/
structure Settled (w : View π ρ α) : Prop where
  capacity_pos : 0 < w.capacity
  length_le : w.items.length ≤ w.capacity
  pushers : w.pushers ≠ [] → w.closed = false ∧ w.items.length = w.capacity
  poppers : w.poppers ≠ [] → w.closed = false ∧ w.items = []

/-- Everyone who waits, sent away. -/
def dismissed (w : View π ρ α) : List (Release π ρ α) :=
  w.pushers.map (fun p => .pushed p.1 false) ++ w.poppers.map (.popped · none)

/-- The steps that change nothing. -/
def Refuses (w : View π ρ α) : Step α → Prop
  | .push _ => w.closed = true
  | .tryPush _ => w.closed = true ∨ w.items.length = w.capacity
  | .pop => w.items = [] ∧ w.closed = true
  | .tryPop => w.items = []
  | .close => False
  | .retire => w.closed = true

end View

/-- What a step can do to a queue. -/
inductive Move (pusher : π) (popper : ρ) (w : View π ρ α) :
    Step α → Deed π ρ α → View π ρ α → Prop
  | refuse {st : Step α} : w.Refuses st → Move pusher popper w st ⟨none, none, false, []⟩ w
  /-- The value is stored. -/
  | store {st : Step α} {v : α} :
      st.value? = some v → w.closed = false → w.items.length < w.capacity → w.poppers = [] →
      Move pusher popper w st ⟨some v, none, false, []⟩ { w with items := w.items ++ [v] }
  /-- The value is stored and goes on to the pop that has waited longest. -/
  | handOver {st : Step α} {v : α} {c : ρ} {cs : List ρ} :
      st.value? = some v → w.closed = false → w.items = [] → w.poppers = c :: cs →
      Move pusher popper w st ⟨some v, none, false, [.popped c (some v)]⟩ { w with poppers := cs }
  /-- A value is taken, and nobody waits for the room. -/
  | take {st : Step α} {v : α} {rest : List α} :
      st.takes = true → w.items = v :: rest → w.pushers = [] →
      Move pusher popper w st ⟨none, some v, false, []⟩ { w with items := rest }
  /-- A value is taken, and the push that has waited longest is let in. -/
  | letIn {st : Step α} {v x : α} {rest : List α} {c : π} {ps : List (π × α)} :
      st.takes = true → w.items = v :: rest → w.pushers = (c, x) :: ps →
      Move pusher popper w st ⟨none, some v, false, [.pushed c true]⟩
        { w with items := rest ++ [x], pushers := ps }
  | parkPush {v : α} :
      w.closed = false → w.items.length = w.capacity →
      Move pusher popper w (.push v) ⟨none, none, true, []⟩
        { w with pushers := w.pushers ++ [(pusher, v)] }
  | parkPop :
      w.closed = false → w.items = [] →
      Move pusher popper w .pop ⟨none, none, true, []⟩ { w with poppers := w.poppers ++ [popper] }
  | close :
      Move pusher popper w .close ⟨none, none, false, w.dismissed⟩ ⟨w.capacity, true, [], [], []⟩
  | retire :
      w.closed = false →
      Move pusher popper w .retire ⟨none, none, false, w.dismissed⟩
        { w with closed := true, pushers := [], poppers := [] }

section moves

variable {q : Queue π ρ α} {v : α}

theorem hasRoom_iff (q : Queue π ρ α) :
    q.buffer.hasRoom = true ↔ q.view.items.length < q.view.capacity := by
  rw [Buffer.hasRoom, decide_eq_true_eq, Fifo.size_eq_length]
  rfl

theorem view_add (q : Queue π ρ α) (v : α) :
    ({ q with buffer := q.buffer.add v } : Queue π ρ α).view =
      { q.view with items := q.view.items ++ [v] } :=
  congrArg (fun items => { q.view with items := items }) (Fifo.toList_push q.buffer.items v)

theorem view_parkPush (q : Queue π ρ α) (c : π) (v : α) :
    ({ q with pushers := q.pushers.push (c, v) } : Queue π ρ α).view =
      { q.view with pushers := q.view.pushers ++ [(c, v)] } :=
  congrArg (fun pushers => { q.view with pushers := pushers }) (Fifo.toList_push q.pushers (c, v))

theorem view_parkPop (q : Queue π ρ α) (c : ρ) :
    ({ q with poppers := q.poppers.push c } : Queue π ρ α).view =
      { q.view with poppers := q.view.poppers ++ [c] } :=
  congrArg (fun poppers => { q.view with poppers := poppers }) (Fifo.toList_push q.poppers c)

theorem serve_add (hs : q.view.Settled) (v : α) :
    (q.view.poppers = [] ∧ serve { q with buffer := q.buffer.add v } =
        ({ q with buffer := q.buffer.add v }, [])) ∨
      ∃ c cs q', q.view.poppers = c :: cs ∧ serve { q with buffer := q.buffer.add v } =
        (q', [.popped c (some v)]) ∧ q'.view = { q.view with poppers := cs } := by
  rcases q.poppers.pop?_cases with ⟨-, hnil⟩ | ⟨c, cs, hpop, hcons, -⟩
  · exact Or.inl ⟨hnil, serve_of_nobody hnil⟩
  · have hempty : q.buffer.items.toList = [] := (hs.poppers (by
      rw [show q.view.poppers = c :: cs.toList from hcons]
      exact List.cons_ne_nil _ _)).2
    have hitems : (q.buffer.add v).items.toList = v :: [] :=
      (Fifo.toList_push q.buffer.items v).trans (congrArg (· ++ [v]) hempty)
    obtain ⟨buffer, htake, hrest, hcap, hclosed, -⟩ := Buffer.exists_pop?_of_toList hitems
    refine Or.inr ⟨c, cs.toList, { q with buffer, poppers := cs }, hcons,
      serve_of_waiting (q := { q with buffer := q.buffer.add v }) hpop htake, ?_⟩
    rw [view, View.mk.injEq]
    exact ⟨hcap, hclosed, hrest.trans hempty.symm, rfl, rfl⟩

theorem letIn_take (hs : q.view.Settled) {rest : List α} (hitems : q.view.items = v :: rest) :
    ∃ buffer, q.buffer.pop? = some (v, buffer) ∧
      ((q.view.pushers = [] ∧ letIn { q with buffer } = ({ q with buffer }, []) ∧
          ({ q with buffer } : Queue π ρ α).view = { q.view with items := rest }) ∨
        ∃ c x ps q', q.view.pushers = (c, x) :: ps ∧
          letIn { q with buffer } = (q', [.pushed c true]) ∧
          q'.view = { q.view with items := rest ++ [x], pushers := ps }) := by
  obtain ⟨buffer, htake, hrest, hcap, hclosed, hsize⟩ := Buffer.exists_pop?_of_toList hitems
  refine ⟨buffer, htake, ?_⟩
  rcases q.pushers.pop?_cases with ⟨-, hnil⟩ | ⟨⟨c, x⟩, ps, hpop, hcons, -⟩
  · refine Or.inl ⟨hnil, letIn_of_nobody (q := { q with buffer }) hnil, ?_⟩
    rw [view, View.mk.injEq]
    exact ⟨hcap, hclosed, hrest, rfl, rfl⟩
  · have hroom : buffer.hasRoom = true := by
      have hle := hs.length_le
      rw [show q.view.items.length = q.buffer.items.size from (Fifo.size_eq_length _).symm] at hle
      have hcap' : q.view.capacity = q.buffer.capacity := rfl
      rw [Buffer.hasRoom, decide_eq_true_eq]
      omega
    refine Or.inr ⟨c, x, ps.toList, { q with buffer := buffer.add x, pushers := ps }, hcons,
      letIn_of_waiting (q := { q with buffer }) hpop hroom, ?_⟩
    rw [view, View.mk.injEq]
    refine ⟨hcap, hclosed, ?_, rfl, rfl⟩
    exact (Fifo.toList_push buffer.items x).trans (congrArg (· ++ [x]) hrest)

/-! ## Steps as moves -/

variable {pusher : π} {popper : ρ}

/-- A value that finds room is stored, and perhaps handed over. -/
theorem moves_store (hs : q.view.Settled) {st : Step α} (hv : st.value? = some v)
    (hopen : q.isClosed = false) (hroom : q.buffer.hasRoom = true) :
    let served := serve { q with buffer := q.buffer.add v }
    Move pusher popper q.view st ⟨some v, none, false, served.2⟩ served.1.view := by
  intro served
  rcases serve_add hs v with ⟨hnil, heq⟩ | ⟨c, cs, q', hcons, heq, hview⟩
  · rw [show served = _ from heq, view_add]
    exact .store hv hopen ((hasRoom_iff q).mp hroom) hnil
  · rw [show served = _ from heq, hview]
    refine .handOver hv hopen (hs.poppers ?_).2 hcons
    rw [hcons]
    exact List.cons_ne_nil c cs

theorem moves_take (hs : q.view.Settled) {st : Step α} (ht : st.takes = true) {rest : List α}
    (hitems : q.view.items = v :: rest) :
    ∃ buffer, q.buffer.pop? = some (v, buffer) ∧
      Move pusher popper q.view st ⟨none, some v, false, (letIn { q with buffer }).2⟩
        (letIn { q with buffer }).1.view := by
  obtain ⟨buffer, htake, ⟨hnil, heq, hview⟩ | ⟨c, x, ps, q', hcons, heq, hview⟩⟩ :=
    letIn_take hs hitems
  · refine ⟨buffer, htake, ?_⟩
    rw [heq, hview]
    exact .take ht hitems hnil
  · refine ⟨buffer, htake, ?_⟩
    rw [heq, hview]
    exact .letIn ht hitems hcons

/-- **Every step of a settled queue is a move.** -/
theorem Step.moves (hs : q.view.Settled) (pusher : π) (popper : ρ) (st : Step α) :
    Move pusher popper q.view st (st.act q pusher popper).2 (st.act q pusher popper).1.view := by
  -- A settled queue never holds more than its capacity, so one without room holds just that.
  have hfull : q.buffer.hasRoom = false → q.view.items.length = q.view.capacity := fun hroom =>
    Nat.le_antisymm hs.length_le <| Nat.not_lt.mp fun h => by
      rw [(hasRoom_iff q).mpr h] at hroom
      cases hroom
  cases st with
  | push v =>
    cases hc : q.isClosed with
    | true =>
      rw [act, push_of_shut hc]
      exact .refuse hc
    | false =>
      cases hroom : q.buffer.hasRoom with
      | true =>
        rw [act, push_of_room hc hroom rfl]
        exact moves_store hs rfl hc hroom
      | false =>
        rw [act, push_of_full hc hroom]
        dsimp only
        rw [view_parkPush]
        exact .parkPush hc (hfull hroom)
  | tryPush v =>
    cases hc : q.isClosed with
    | true =>
      rw [act, tryPush_of_shut hc]
      exact .refuse (Or.inl hc)
    | false =>
      cases hroom : q.buffer.hasRoom with
      | true =>
        rw [act, tryPush_of_room hc hroom rfl]
        exact moves_store hs rfl hc hroom
      | false =>
        rw [act, tryPush_of_full hc hroom]
        exact .refuse (Or.inr (hfull hroom))
  | pop =>
    cases hitems : q.view.items with
    | nil =>
      cases hc : q.isClosed with
      | true =>
        rw [act, pop_of_shut hitems hc]
        exact .refuse ⟨hitems, hc⟩
      | false =>
        rw [act, pop_of_open hitems hc]
        dsimp only
        rw [view_parkPop]
        exact .parkPop hc hitems
    | cons v rest =>
      obtain ⟨buffer, htake, hmove⟩ := moves_take hs (Eq.refl (Step.takes .pop)) hitems
      rw [act, pop_of_value htake rfl]
      exact hmove
  | tryPop =>
    cases hitems : q.view.items with
    | nil =>
      rw [act, tryPop_of_empty hitems]
      exact .refuse hitems
    | cons v rest =>
      obtain ⟨buffer, htake, hmove⟩ := moves_take hs (Eq.refl (Step.takes .tryPop)) hitems
      rw [act, tryPop_of_value htake rfl]
      exact hmove
  | close => exact .close
  | retire =>
    cases hc : q.isClosed with
    | true =>
      rw [act, retire_of_shut hc]
      exact .refuse hc
    | false =>
      rw [act, retire_of_open hc]
      exact .retire hc

/-! ## Settled queues -/

theorem settled_new (capacity : Nat) : (new capacity : Queue π ρ α).view.Settled where
  capacity_pos := Nat.lt_of_lt_of_le Nat.zero_lt_one (Nat.le_max_right ..)
  length_le := Nat.zero_le _
  pushers h := absurd rfl h
  poppers h := absurd rfl h

theorem View.Settled.poppers_of_pushers {w : View π ρ α} (hs : w.Settled) (hpush : w.pushers ≠ []) :
    w.poppers = [] := by
  cases hpop : w.poppers with
  | nil => rfl
  | cons c cs =>
    -- With room for one value at least, a queue is never full and empty at once.
    have hlen := (hs.pushers hpush).2
    rw [(hs.poppers (hpop ▸ List.cons_ne_nil c cs)).2] at hlen
    exact absurd hs.capacity_pos (Nat.not_lt.mpr (Nat.le_of_eq hlen.symm))

theorem View.Settled.alone_of_closed {w : View π ρ α} (hs : w.Settled) (hc : w.closed = true) :
    w.pushers = [] ∧ w.poppers = [] := by
  have hshut : ¬ w.closed = false := by simp [hc]
  constructor
  · cases hpush : w.pushers with
    | nil => rfl
    | cons p ps => exact absurd (hs.pushers (hpush ▸ List.cons_ne_nil p ps)).1 hshut
  · cases hpop : w.poppers with
    | nil => rfl
    | cons c cs => exact absurd (hs.poppers (hpop ▸ List.cons_ne_nil c cs)).1 hshut

/-- **A move leaves a settled queue.** -/
theorem Move.settled {w w' : View π ρ α} {st : Step α} {d : Deed π ρ α}
    (hm : Move pusher popper w st d w') (hs : w.Settled) : w'.Settled := by
  cases hm with
  | refuse _ => exact hs
  | @store _ v hv hopen hroom hpop =>
    have hlen : (w.items ++ [v]).length = w.items.length + 1 := List.length_append
    refine ⟨hs.capacity_pos, hlen ▸ hroom, fun hpush => ?_, fun h => absurd hpop h⟩
    exact absurd (hs.pushers hpush).2 (Nat.ne_of_lt hroom)
  | @handOver _ _ c cs hv hopen hitems hpop =>
    refine ⟨hs.capacity_pos, hs.length_le, fun hpush => ?_, fun _ => ⟨hopen, hitems⟩⟩
    rw [hs.poppers_of_pushers hpush] at hpop
    cases hpop
  | @take _ v rest ht hitems hpush =>
    refine ⟨hs.capacity_pos, ?_, fun h => absurd hpush h, fun hpop => ?_⟩
    · have hlen : w.items.length = rest.length + 1 := congrArg List.length hitems
      have hle := hs.length_le
      rw [hlen] at hle
      exact Nat.le_of_succ_le hle
    · rw [(hs.poppers hpop).2] at hitems
      cases hitems
  | @letIn _ v x rest c ps ht hitems hpush =>
    have hne : w.pushers ≠ [] := by
      rw [hpush]
      exact List.cons_ne_nil _ _
    have hlen : (rest ++ [x]).length = w.items.length := by
      rw [hitems]
      exact List.length_append
    refine ⟨hs.capacity_pos, hlen ▸ hs.length_le, fun _ => ?_,
      fun hpop => absurd (hs.poppers_of_pushers hne) hpop⟩
    exact ⟨(hs.pushers hne).1, hlen.trans (hs.pushers hne).2⟩
  | parkPush hopen hfull =>
    refine ⟨hs.capacity_pos, hs.length_le, fun _ => ⟨hopen, hfull⟩, hs.poppers⟩
  | parkPop hopen hitems =>
    exact ⟨hs.capacity_pos, hs.length_le, hs.pushers, fun _ => ⟨hopen, hitems⟩⟩
  | close => exact ⟨hs.capacity_pos, Nat.zero_le _, fun h => absurd rfl h, fun h => absurd rfl h⟩
  | retire hopen =>
    exact ⟨hs.capacity_pos, hs.length_le, fun h => absurd rfl h, fun h => absurd rfl h⟩

end moves

end Switchboard.Queue
