import Switchboard.Proofs.Pipeline.Settled

/-!
# A pipeline behaves as one queue

A channel, a worker's hand and a buffer in a row hold their values as one queue does whose capacity
is that of all three together. `Mirrors` relates a pipeline to such a queue: the unread values are
those stored, and the same calls are parked on both, under names that may differ.

**Main statements** (`Mirrors.store`, `Mirrors.read`, `Mirrors.retire`). What is done to a settled
pipeline and to the queue that mirrors it releases the same calls with the same results, and the
two go on mirroring each other.
-/

namespace Switchboard.Pipeline

variable {π ρ α π' ρ' : Type}

/-- A queue holds what a pipeline holds, and the same calls are parked on it. -/
structure Mirrors (pusher : π → π') (popper : ρ → ρ') (p : Pipeline π ρ α) (q : Queue π' ρ' α) :
    Prop where
  capacity : q.buffer.capacity = p.capacity
  items : q.buffer.items.toList = p.unread
  closed : q.buffer.closed = p.buffer.closed
  pushers : q.pushers.toList = p.waiting.toList.map fun w => (pusher w.1, w.2)
  poppers : q.poppers.toList = p.receiver.toList.map popper

section mirrors

variable {pusher : π → π'} {popper : ρ → ρ'} {p p' : Pipeline π ρ α} {q : Queue π' ρ' α}

theorem mirrors_new (n : Nat) :
    Mirrors pusher popper (new n : Pipeline π ρ α)
      (.new (min (max n 1) maxChannel + 1 + max n 1) : Queue π' ρ' α) where
  capacity := by
    show max (min (max n 1) maxChannel + 1 + max n 1) 1 = _
    rw [Nat.max_eq_left (by omega)]
    rfl
  items := rfl
  closed := rfl
  pushers := rfl
  poppers := rfl

theorem Mirrors.hasRoom (hm : Mirrors pusher popper p q) (hs : p.Settled) :
    q.buffer.hasRoom = p.buffer.hasRoom := by
  rw [Bool.eq_iff_iff, hs.hasRoom_iff hs.capacity_pos, Buffer.hasRoom, decide_eq_true_eq,
    Fifo.size_eq_length, hm.items, hm.capacity]

theorem Mirrors.isEmpty (hm : Mirrors pusher popper p q) : q.isEmpty = p.unread.isEmpty := by
  rw [Bool.eq_iff_iff, Queue.isEmpty, Fifo.isEmpty_iff, hm.items, List.isEmpty_iff]

theorem Mirrors.isEmpty_poppers (hm : Mirrors pusher popper p q) :
    q.poppers.isEmpty = p.receiver.isNone := by
  rw [Bool.eq_iff_iff, Fifo.isEmpty_iff, hm.poppers]
  cases p.receiver <;> simp

/-- **Storing.** A receive that waits is served by the queue as well. -/
theorem Mirrors.store (hm : Mirrors pusher popper p q) (hs : p.Settled)
    (hroom : p.buffer.hasRoom = true) {v : α} {received : List (ρ × Option α)}
    (hstore : p.store v = (p', received)) :
    ∃ q', Queue.serve { q with buffer := q.buffer.add v } =
        (q', received.map fun r => .popped (popper r.1) r.2) ∧ Mirrors pusher popper p' q' := by
  obtain ⟨rfl, -, hunread, hshell⟩ := hs.of_store hroom hstore
  obtain ⟨hr, hc, hcl, hw, hrec'⟩ := shell_eq_iff.mp hshell
  have hcap : p'.capacity = p.capacity := by
    rw [Pipeline.capacity, Pipeline.capacity, hr, hc]
  cases hrec : p.receiver with
  | none =>
    have hnobody : q.poppers.toList = [] := by rw [hm.poppers, hrec]; rfl
    refine ⟨{ q with buffer := q.buffer.add v },
      Queue.serve_of_nobody (q := { q with buffer := q.buffer.add v }) hnobody, ?_⟩
    rw [hrec] at hunread
    exact { capacity := hm.capacity.trans hcap.symm
            items := by
              show (q.buffer.items.push v).toList = p'.unread
              rw [Fifo.toList_push, hm.items, hunread]
              rfl
            closed := hm.closed.trans hcl.symm
            pushers := by rw [hw]; exact hm.pushers
            poppers := by rw [hrec']; exact hm.poppers.trans (by rw [hrec]) }
  | some c =>
    have hempty : p.unread = [] := hs.unread_of_receiver (by rw [hrec]; exact Option.some_ne_none c)
    have hitems : (q.buffer.add v).items.toList = [v] := by
      show (q.buffer.items.push v).toList = [v]
      rw [Fifo.toList_push, hm.items, hempty]
      rfl
    obtain ⟨buffer, hpop, hrest, hbcap, hbclosed, -⟩ := Buffer.exists_pop?_of_toList hitems
    obtain ⟨poppers, hpoppers, hnone⟩ := Fifo.exists_pop?_of_toList
      (show q.poppers.toList = popper c :: [] by rw [hm.poppers, hrec]; rfl)
    refine ⟨{ q with buffer, poppers },
      Queue.serve_of_waiting (q := { q with buffer := q.buffer.add v }) hpoppers hpop, ?_⟩
    rw [hrec] at hunread
    exact { capacity := hbcap.trans (hm.capacity.trans hcap.symm)
            items := hrest.trans (by rw [hunread]; rfl)
            closed := hbclosed.trans (hm.closed.trans hcl.symm)
            pushers := by rw [hw]; exact hm.pushers
            poppers := by rw [hrec']; exact hnone }

/-- **Receiving.** The queue gives up the same value, and lets in the same push. -/
theorem Mirrors.read (hm : Mirrors pusher popper p q) (hs : p.Settled) {v : α} {rest : List α}
    (hu : p.unread = v :: rest) {reception : Reception α} {publication : Option π}
    (hread : p.tryReceive = (p', reception, publication)) :
    reception = .value v ∧ ∃ buffer q', q.buffer.pop? = some (v, buffer) ∧
      Queue.letIn { q with buffer } =
        (q', publication.toList.map fun x => .pushed (pusher x) true) ∧
      Mirrors pusher popper p' q' := by
  obtain ⟨rfl, rfl, -, hunread, hwait, hshell⟩ := hs.of_tryReceive hu hread
  obtain ⟨hr, hc, hcl, -, hrec⟩ := shell_eq_iff.mp hshell
  have hcap : p'.capacity = p.capacity := by
    rw [Pipeline.capacity, Pipeline.capacity, hr, hc]
  obtain ⟨buffer, hpop, hrest, hbcap, hbclosed, hsize⟩ :=
    Buffer.exists_pop?_of_toList (hm.items.trans hu)
  refine ⟨rfl, buffer, ?_⟩
  cases hw : p.waiting.toList with
  | nil =>
    have hnobody : q.pushers.toList = [] := by rw [hm.pushers, hw]; rfl
    rw [hw] at hunread hwait
    refine ⟨{ q with buffer }, hpop, Queue.letIn_of_nobody (q := { q with buffer }) hnobody, ?_⟩
    exact { capacity := hbcap.trans (hm.capacity.trans hcap.symm)
            items := by
              rw [hunread]
              exact hrest.trans (List.append_nil _).symm
            closed := hbclosed.trans (hm.closed.trans hcl.symm)
            pushers := by
              rw [hwait, hm.pushers, hw]
              rfl
            poppers := by rw [hrec]; exact hm.poppers }
  | cons w ws =>
    obtain ⟨pushers, hpushers, hws⟩ := Fifo.exists_pop?_of_toList
      (show q.pushers.toList = (pusher w.1, w.2) :: ws.map fun w => (pusher w.1, w.2) by
        rw [hm.pushers, hw]
        rfl)
    -- The value taken makes room for the push that has waited longest.
    have hroom : buffer.hasRoom = true := by
      have hlen : q.buffer.items.size ≤ q.buffer.capacity := by
        rw [Fifo.size_eq_length, hm.items, hm.capacity]
        exact hs.unread_le
      rw [Buffer.hasRoom, decide_eq_true_eq, hbcap]
      omega
    rw [hw] at hunread hwait
    refine ⟨{ q with buffer := buffer.add w.2, pushers }, hpop,
      Queue.letIn_of_waiting (q := { q with buffer }) hpushers hroom, ?_⟩
    exact { capacity := hbcap.trans (hm.capacity.trans hcap.symm)
            items := by
              show (buffer.items.push w.2).toList = p'.unread
              rw [Fifo.toList_push, hrest, hunread]
              rfl
            closed := hbclosed.trans (hm.closed.trans hcl.symm)
            pushers := by
              rw [hwait]
              exact hws
            poppers := by rw [hrec]; exact hm.poppers }

theorem Mirrors.park (hm : Mirrors pusher popper p q) (publication : π) (v : α) :
    Mirrors pusher popper (p.park publication v)
      { q with pushers := q.pushers.push (pusher publication, v) } where
  capacity := hm.capacity
  items := hm.items
  closed := hm.closed
  pushers := by
    show (q.pushers.push (pusher publication, v)).toList =
      (p.waiting.push (publication, v)).toList.map _
    rw [Fifo.toList_push, Fifo.toList_push, hm.pushers, List.map_append]
    rfl
  poppers := hm.poppers

theorem Mirrors.await (hm : Mirrors pusher popper p q) (hr : p.receiver = none) (caller : ρ) :
    Mirrors pusher popper { p with receiver := some caller }
      { q with poppers := q.poppers.push (popper caller) } where
  capacity := hm.capacity
  items := hm.items
  closed := hm.closed
  pushers := hm.pushers
  poppers := by
    rw [Fifo.toList_push, hm.poppers, hr]
    rfl

/-- **Retiring.** Both release everyone who is parked. -/
theorem Mirrors.retire (hm : Mirrors pusher popper p q) (hs : p.Settled) :
    q.retire.released = p.waiting.toList.map (fun w => .pushed (pusher w.1) false) ++
        p.receiver.toList.map (fun c => .popped (popper c) none) ∧
      Mirrors pusher popper p.retired q.retire.queue := by
  cases hc : p.buffer.closed with
  | true =>
    obtain ⟨hw, hr⟩ := hs.idle_of_closed hc
    rw [Queue.retire_of_shut (hm.closed.trans hc), hs.retired_of_closed hc, hw, hr]
    exact ⟨rfl, hm⟩
  | false =>
    rw [Queue.retire_of_open (hm.closed.trans hc)]
    refine ⟨?_, hm.capacity, hm.items, rfl, rfl, rfl⟩
    show q.dismissed = _
    rw [Queue.dismissed, hm.pushers, hm.poppers, List.map_map, List.map_map]
    rfl

end mirrors

end Switchboard.Pipeline
