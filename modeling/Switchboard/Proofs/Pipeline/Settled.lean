import Mathlib.Data.List.Basic
import Switchboard.Hub.Pipeline

/-!
# Settled pipelines

Between two operations the worker of a pipeline has gone as far as it can and nobody waits
without need. `Settled` says what that means, and for each operation there is one lemma that says
what it does to a settled pipeline, in terms of the unread values only.

**The fill.** The stages fill from the holder's side: the hand holds a value only if the channel is
full, and the buffer only if the hand does.

**The parked calls.** A publish is parked only on an open pipeline whose buffer is full, a receive
only on an open pipeline without unread values. Never both, since the buffer has room for one value
at least.
-/

namespace Switchboard

namespace Pipeline

variable {π ρ α : Type}

/-- The worker can do nothing more. -/
structure Flowing (p : Pipeline π ρ α) : Prop where
  room_pos : 0 < p.room
  channel_le : p.channel.size ≤ p.room
  hand_full : p.hand ≠ none → p.channel.size = p.room
  buffer_full : 0 < p.buffer.items.size → p.hand ≠ none

/-- What holds of a pipeline between two operations. -/
structure Settled (p : Pipeline π ρ α) : Prop extends Flowing p where
  capacity_pos : 0 < p.buffer.capacity
  buffer_le : p.buffer.items.size ≤ p.buffer.capacity
  waiting_full : p.waiting.toList ≠ [] →
    p.buffer.closed = false ∧ p.buffer.items.size = p.buffer.capacity
  receiver_idle : p.receiver ≠ none → p.buffer.closed = false ∧ p.channel.size = 0

theorem settled_new (n : Nat) : (new n : Pipeline π ρ α).Settled where
  room_pos := by simp only [new, maxChannel]; omega
  capacity_pos := by simp only [new, Buffer.new]; omega
  channel_le := Nat.zero_le _
  buffer_le := Nat.zero_le _
  hand_full h := absurd rfl h
  buffer_full h := absurd h (Nat.lt_irrefl 0)
  waiting_full h := absurd rfl h
  receiver_idle h := absurd rfl h

/-! ## What a fill level says -/

theorem length_unread (p : Pipeline π ρ α) :
    p.unread.length = p.channel.size + p.hand.toList.length + p.buffer.items.size := by
  simp only [unread, List.length_append, Fifo.size_eq_length]

theorem unreadCount_eq (p : Pipeline π ρ α) : p.unreadCount = p.unread.length := by
  rw [length_unread, unreadCount, Buffer.size]
  cases p.hand <;> rfl

theorem Flowing.hasRoom_iff {p : Pipeline π ρ α} (h : p.Flowing) (hp : 0 < p.buffer.capacity) :
    p.buffer.hasRoom = true ↔ p.unread.length < p.capacity := by
  rw [length_unread, capacity, Buffer.hasRoom, decide_eq_true_eq]
  have hc := h.channel_le
  cases hh : p.hand with
  | none =>
    have h0 : ¬ 0 < p.buffer.items.size := fun h' => h.buffer_full h' hh
    simp only [Option.toList_none, List.length_nil]
    omega
  | some v =>
    have := h.hand_full (by rw [hh]; exact Option.some_ne_none v)
    simp only [Option.toList_some, List.length_singleton]
    omega

theorem Flowing.buffer_le {p : Pipeline π ρ α} (h : p.Flowing)
    (hu : p.unread.length ≤ p.capacity) : p.buffer.items.size ≤ p.buffer.capacity := by
  rw [length_unread, capacity] at hu
  have hf := h.hand_full
  have hb := h.buffer_full
  cases hh : p.hand with
  | none =>
    have : ¬ 0 < p.buffer.items.size := fun h' => hb h' hh
    omega
  | some v =>
    rw [hh] at hf hu
    have := hf (Option.some_ne_none v)
    simp only [Option.toList_some, List.length_singleton] at hu
    omega

/-- A pipeline that is one value short of full is so in its buffer. -/
theorem Flowing.short_of_one {p : Pipeline π ρ α} (h : p.Flowing) (hp : 0 < p.buffer.capacity)
    (hu : p.unread.length + 1 = p.capacity) :
    p.buffer.items.size + 1 = p.buffer.capacity ∧ p.hand ≠ none := by
  rw [length_unread, capacity] at hu
  have hc := h.channel_le
  cases hh : p.hand with
  | none =>
    have h0 : ¬ 0 < p.buffer.items.size := fun h' => h.buffer_full h' hh
    rw [hh, Option.toList_none, List.length_nil] at hu
    omega
  | some v =>
    have hfull := h.hand_full (by rw [hh]; exact Option.some_ne_none v)
    rw [hh, Option.toList_some, List.length_singleton] at hu
    exact ⟨by omega, Option.some_ne_none v⟩

theorem Flowing.settled {p : Pipeline π ρ α} (h : p.Flowing) (hp : 0 < p.buffer.capacity)
    (hu : p.unread.length ≤ p.capacity) (hw : p.waiting.toList = []) (hr : p.receiver = none) :
    p.Settled where
  toFlowing := h
  capacity_pos := hp
  buffer_le := h.buffer_le hu
  waiting_full hne := absurd hw hne
  receiver_idle hne := absurd hr hne

theorem Settled.unread_le {p : Pipeline π ρ α} (h : p.Settled) : p.unread.length ≤ p.capacity := by
  have hchannel := h.channel_le
  have hbuffer := h.buffer_le
  have hhand : p.hand.toList.length ≤ 1 := by cases p.hand <;> simp
  rw [length_unread, capacity]
  omega

/-- Nothing waits behind an empty channel. -/
theorem Flowing.unread_eq_nil {p : Pipeline π ρ α} (h : p.Flowing) (hc : p.channel.size = 0) :
    p.unread = [] := by
  have hh : p.hand = none := by
    by_contra hne
    have := h.hand_full hne
    have := h.room_pos
    omega
  have hb : p.buffer.items.size = 0 := by
    by_contra hne
    exact h.buffer_full (by omega) hh
  apply List.length_eq_zero_iff.mp
  rw [length_unread, hc, hb, hh]
  rfl

theorem Flowing.exists_pop? {p : Pipeline π ρ α} (h : p.Flowing) {v : α} {rest : List α}
    (hu : p.unread = v :: rest) :
    ∃ channel, p.channel.pop? = some (v, channel) ∧ p.channel.size = channel.size + 1 ∧
      unread { p with channel } = rest := by
  rcases Fifo.pop?_cases p.channel with ⟨-, hl⟩ | ⟨a, channel, hp, hl, hs⟩
  · rw [h.unread_eq_nil (by rw [Fifo.size_eq_length, hl, List.length_nil])] at hu
    cases hu
  · simp only [unread, hl, List.cons_append, List.cons.injEq] at hu
    obtain ⟨rfl, hu⟩ := hu
    exact ⟨channel, hp, hs, hu⟩

theorem Settled.unread_of_receiver {p : Pipeline π ρ α} (h : p.Settled) (hr : p.receiver ≠ none) :
    p.unread = [] :=
  h.unread_eq_nil (h.receiver_idle hr).2

theorem Settled.receiver_none {p : Pipeline π ρ α} (h : p.Settled) {v : α} {rest : List α}
    (hu : p.unread = v :: rest) : p.receiver = none := by
  by_contra hne
  rw [h.unread_of_receiver hne] at hu
  cases hu

theorem channel_pop?_of_unread_nil {p : Pipeline π ρ α} (hu : p.unread = []) :
    p.channel.pop? = none := by
  simp only [unread, List.append_eq_nil_iff] at hu
  exact Fifo.pop?_of_toList_nil hu.1.1

theorem hasEnded_of_unread_nil {p : Pipeline π ρ α} (hu : p.unread = []) :
    p.hasEnded = p.buffer.closed := by
  simp only [unread, List.append_eq_nil_iff, Option.toList_eq_nil_iff] at hu
  have hb : p.buffer.items.isEmpty = true := (Fifo.isEmpty_iff _).mpr hu.2
  rw [hasEnded, hb, hu.1.2]
  simp

/-- A pipeline on which a publish is parked is open and full. -/
theorem Settled.full_of_waiting {p : Pipeline π ρ α} (h : p.Settled) (hw : p.waiting.toList ≠ []) :
    p.isOpen = true ∧ p.unread.length = p.capacity := by
  obtain ⟨hopen, hfull⟩ := h.waiting_full hw
  have hhand : p.hand ≠ none := h.buffer_full (by rw [hfull]; exact h.capacity_pos)
  obtain ⟨x, hx⟩ := Option.ne_none_iff_exists'.mp hhand
  refine ⟨by rw [isOpen, hopen]; rfl, ?_⟩
  rw [length_unread, h.hand_full hhand, hfull, hx]
  rfl

/-! ## The worker -/

/-- What the worker leaves alone: the parked calls, and the sizes and the state of the stages. -/
def shell (p : Pipeline π ρ α) : Nat × Nat × Bool × Fifo (π × α) × Option ρ :=
  (p.room, p.buffer.capacity, p.buffer.closed, p.waiting, p.receiver)

theorem shell_take (p : Pipeline π ρ α) : p.take.shell = p.shell := by
  unfold take
  split
  · rename_i v buffer _ hb
    simp only [Buffer.pop?, Option.map_eq_some_iff, Prod.mk.injEq] at hb
    obtain ⟨_, _, _, rfl⟩ := hb
    rfl
  · rfl

theorem shell_send (p : Pipeline π ρ α) : p.send.shell = p.shell := by
  unfold send
  split
  · split <;> rfl
  · rfl

theorem shell_advance (p : Pipeline π ρ α) : p.advance.shell = p.shell := by
  rw [advance, shell_take, shell_send, shell_take]

theorem unread_take (p : Pipeline π ρ α) : p.take.unread = p.unread := by
  unfold take
  split
  · rename_i v buffer hh hb
    simp only [Buffer.pop?, Option.map_eq_some_iff, Prod.mk.injEq] at hb
    obtain ⟨⟨a, r⟩, hr, rfl, rfl⟩ := hb
    simp [unread, hh, Fifo.toList_eq_cons_of_pop? hr]
  · rfl

theorem unread_send (p : Pipeline π ρ α) : p.send.unread = p.unread := by
  unfold send
  split
  · rename_i v hh
    split
    · simp [unread, hh]
    · rfl
  · rfl

/-- The worker moves values and loses none. -/
theorem unread_advance (p : Pipeline π ρ α) : p.advance.unread = p.unread := by
  rw [advance, unread_take, unread_send, unread_take]

theorem take_of_hand_none {p : Pipeline π ρ α} (h : p.hand = none) :
    (p.buffer.items.size = 0 ∧ p.take = p) ∨
      ∃ v items, p.take = { p with hand := some v, buffer := { p.buffer with items } } ∧
        p.buffer.items.size = items.size + 1 := by
  unfold take
  rw [h]
  rcases Fifo.pop?_cases p.buffer.items with ⟨hp, hl⟩ | ⟨v, items, hp, -, hs⟩
  · refine Or.inl ⟨by rw [Fifo.size_eq_length, hl, List.length_nil], ?_⟩
    simp [Buffer.pop?, hp]
  · exact Or.inr ⟨v, items, by simp [Buffer.pop?, hp], hs⟩

theorem take_of_hand_some {p : Pipeline π ρ α} (h : p.hand ≠ none) : p.take = p := by
  unfold take
  split
  · rename_i hh _
    exact absurd hh h
  · rfl

/-- One round is enough if at most one value has come in behind an empty hand, or at most one has
left a full channel. -/
theorem flowing_advance {p : Pipeline π ρ α} (hc : p.channel.size ≤ p.room) (hr : 0 < p.room)
    (hn : p.hand = none → p.buffer.items.size ≤ 1)
    (hs : p.hand ≠ none → p.room ≤ p.channel.size + 1) : p.advance.Flowing := by
  unfold advance
  by_cases hh : p.hand = none
  · rcases take_of_hand_none hh with ⟨hb, ht⟩ | ⟨v, items, ht, hb⟩
    · have hsend : p.send = p := by simp [send, hh]
      rw [ht, hsend, ht]
      exact ⟨hr, hc, fun h => absurd hh h, fun h => by omega⟩
    · -- The only value in the buffer goes to the hand, and on to the channel if that has room.
      have hi : items.size = 0 := by have := hn hh; omega
      rw [ht]
      by_cases hroom : p.channel.size < p.room
      · have hsend : send { p with hand := some v, buffer := { p.buffer with items } } =
            { p with hand := none, channel := p.channel.push v,
                     buffer := { p.buffer with items } } := by simp [send, hroom]
        rw [hsend]
        rcases take_of_hand_none
          (p := { p with hand := none, channel := p.channel.push v,
                         buffer := { p.buffer with items } }) rfl with ⟨-, ht'⟩ | ⟨_, _, -, hb'⟩
        · rw [ht']
          refine ⟨hr, by simp only [Fifo.size_push]; omega, fun h => absurd rfl h, fun h => ?_⟩
          simp only [hi] at h
          omega
        · simp only [hi] at hb'
          omega
      · have hsend : send { p with hand := some v, buffer := { p.buffer with items } } =
            { p with hand := some v, buffer := { p.buffer with items } } := by
          simp [send, hroom]
        rw [hsend, take_of_hand_some (by simp)]
        exact ⟨hr, hc, fun _ => by simp only; omega, fun _ => by simp⟩
  · -- The value in the hand leaves it for the last place in the channel, if that is free.
    obtain ⟨v, hv⟩ := Option.ne_none_iff_exists'.mp hh
    rw [take_of_hand_some hh]
    by_cases hroom : p.channel.size < p.room
    · have hsend : p.send = { p with hand := none, channel := p.channel.push v } := by
        simp [send, hv, hroom]
      have hfull : p.channel.size + 1 = p.room := by have := hs hh; omega
      rw [hsend]
      rcases take_of_hand_none (p := { p with hand := none, channel := p.channel.push v }) rfl
        with ⟨hb, ht⟩ | ⟨w, items, ht, hb⟩
      · rw [ht]
        refine ⟨hr, by simp only [Fifo.size_push]; omega, fun h => absurd rfl h, fun h => ?_⟩
        simp only at hb h
        omega
      · rw [ht]
        refine ⟨hr, by simp only [Fifo.size_push]; omega, fun _ => ?_, fun _ => by simp⟩
        simp only [Fifo.size_push]
        exact hfull
    · have hsend : p.send = p := by simp [send, hv, hroom]
      rw [hsend, take_of_hand_some hh]
      exact ⟨hr, hc, fun _ => by omega, fun _ => hh⟩

theorem Settled.flowing_add {p : Pipeline π ρ α} (h : p.Settled) (v : α) :
    (advance { p with buffer := p.buffer.add v }).Flowing := by
  refine flowing_advance h.channel_le h.room_pos (fun hh => ?_) fun hh => ?_
  · have : ¬ 0 < p.buffer.items.size := fun h' => h.buffer_full h' hh
    simp only [Buffer.add, Fifo.size_push]
    omega
  · have := h.hand_full hh
    dsimp only
    omega

theorem Settled.flowing_pop {p : Pipeline π ρ α} (h : p.Settled) {channel : Fifo α}
    (hs : p.channel.size = channel.size + 1) : (advance { p with channel }).Flowing := by
  have hchannel := h.channel_le
  refine flowing_advance (by dsimp only; omega) h.room_pos (fun hh => ?_) fun hh => ?_
  · have : ¬ 0 < p.buffer.items.size := fun h' => h.buffer_full h' hh
    dsimp only
    omega
  · have := h.hand_full hh
    dsimp only
    omega

/-! ## The operations -/

section operations

variable {p : Pipeline π ρ α}

theorem shell_eq_iff {p q : Pipeline π ρ α} :
    p.shell = q.shell ↔ p.room = q.room ∧ p.buffer.capacity = q.buffer.capacity ∧
      p.buffer.closed = q.buffer.closed ∧ p.waiting = q.waiting ∧ p.receiver = q.receiver := by
  simp only [shell, Prod.mk.injEq]

/-- **Storing.** The value comes behind the unread ones, or goes at once to the receive that waits
for it. -/
theorem Settled.store (h : p.Settled) (hroom : p.buffer.hasRoom = true) (v : α) :
    ∃ p', p.store v = (p', p.receiver.toList.map (·, some v)) ∧ p'.Settled ∧
      p'.unread = (if p.receiver.isSome then [] else p.unread ++ [v]) ∧
      p'.shell = { p with receiver := none }.shell := by
  set q : Pipeline π ρ α := { p with buffer := p.buffer.add v } with hq
  have hsize : p.buffer.items.size < p.buffer.capacity := by
    simpa [Buffer.hasRoom] using hroom
  -- While there is room nobody is parked.
  have hwait : p.waiting.toList = [] := by
    by_contra hne
    have := (h.waiting_full hne).2
    omega
  have hflow : q.advance.Flowing := h.flowing_add v
  have hshell := shell_eq_iff.mp (shell_advance q)
  have hunread : q.advance.unread = p.unread ++ [v] := by
    rw [unread_advance]
    simp [hq, unread, Buffer.add]
  obtain ⟨hr, hc, hcl, hw, hre⟩ := hshell
  have hlen : q.advance.unread.length ≤ q.advance.capacity := by
    rw [hunread, List.length_append, List.length_singleton, capacity, hr, hc]
    exact (h.hasRoom_iff h.capacity_pos).mp hroom
  show ∃ p', serve q.advance = _ ∧ _
  cases hrec : p.receiver with
  | none =>
    have hre' : q.advance.receiver = none := hre.trans hrec
    refine ⟨q.advance, by simp [Pipeline.serve, hre'], ?_, by simpa using hunread, ?_⟩
    · exact hflow.settled (by rw [hc]; exact h.capacity_pos) hlen (by rw [hw]; exact hwait) hre'
    · rw [shell_advance]
      simp only [shell, hq, hrec, Buffer.add]
  | some c =>
    have hre' : q.advance.receiver = some c := hre.trans hrec
    rw [h.unread_of_receiver (by rw [hrec]; exact Option.some_ne_none c), List.nil_append]
      at hunread
    obtain ⟨channel, hp, hs, hu⟩ := hflow.exists_pop? hunread
    refine ⟨{ q.advance with channel, receiver := none }, by simp [Pipeline.serve, hre', hp],
      ?_, by simpa [unread] using hu, ?_⟩
    · have hnil : q.advance.hand = none ∧ q.advance.buffer.items.toList = [] := by
        simp only [unread, List.append_eq_nil_iff, Option.toList_eq_nil_iff] at hu
        exact ⟨hu.1.2, hu.2⟩
      exact { room_pos := hflow.room_pos
              channel_le := by have := hflow.channel_le; simp only; omega
              hand_full := fun hne => absurd hnil.1 hne
              buffer_full := fun hb => by
                rw [Fifo.size_eq_length, hnil.2] at hb
                exact absurd hb (Nat.lt_irrefl 0)
              capacity_pos := by simp only; rw [hc]; exact h.capacity_pos
              buffer_le := hflow.buffer_le hlen
              waiting_full := fun hne => absurd (by simp only; rw [hw]; exact hwait) hne
              receiver_idle := fun hne => absurd rfl hne }
    · have := shell_eq_iff.mp (shell_advance q)
      exact shell_eq_iff.mpr ⟨this.1, this.2.1, this.2.2.1, this.2.2.2.1, rfl⟩

theorem Settled.of_store (h : p.Settled) (hroom : p.buffer.hasRoom = true) {v : α}
    {p' : Pipeline π ρ α} {received : List (ρ × Option α)} (hs : p.store v = (p', received)) :
    received = p.receiver.toList.map (·, some v) ∧ p'.Settled ∧
      p'.unread = (if p.receiver.isSome then [] else p.unread ++ [v]) ∧
      p'.shell = { p with receiver := none }.shell := by
  obtain ⟨_, heq, hrest⟩ := h.store hroom v
  rw [hs, Prod.mk.injEq] at heq
  obtain ⟨rfl, hreceived⟩ := heq
  exact ⟨hreceived, hrest⟩

theorem tryReceive_nil (hu : p.unread = []) :
    p.tryReceive = (p, if p.buffer.closed then .ended else .empty, none) := by
  rw [tryReceive, channel_pop?_of_unread_nil hu]
  simp only [hasEnded_of_unread_nil hu]

/-- **Receiving.** The oldest unread value leaves, and the value of the longest parked publish, if
there is one, comes in behind the others. -/
theorem Settled.tryReceive (h : p.Settled) {v : α} {rest : List α} (hu : p.unread = v :: rest) :
    ∃ p', p.tryReceive = (p', .value v, p.waiting.toList.head?.map (·.1)) ∧ p'.Settled ∧
      p'.unread = rest ++ p.waiting.toList.head?.toList.map (·.2) ∧
      p'.waiting.toList = p.waiting.toList.tail ∧
      p'.shell = { p with waiting := p'.waiting }.shell := by
  obtain ⟨channel, hp, hs, hrest⟩ := h.exists_pop? hu
  set q : Pipeline π ρ α := { p with channel } with hq
  have hflow : q.advance.Flowing := h.flowing_pop hs
  have hrec := h.receiver_none hu
  have hunread : q.advance.unread = rest := (unread_advance q).trans hrest
  obtain ⟨hr, hc, hcl, hw, hre⟩ := shell_eq_iff.mp (shell_advance q)
  have hcap : q.advance.capacity = p.capacity := by rw [capacity, hr, hc]; rfl
  have hlength : rest.length + 1 = p.unread.length := by rw [hu, List.length_cons]
  have htry : p.tryReceive = ((letIn q.advance).1, .value v, (letIn q.advance).2) := by
    rw [Pipeline.tryReceive, hp]
  rcases Fifo.pop?_cases p.waiting with ⟨hpop, hnil⟩ | ⟨⟨publication, w⟩, waiting, hpop, hcons, -⟩
  · have hlet : letIn q.advance = (q.advance, none) := by
      rw [letIn, hw]
      simp only [hq, hpop]
    have hle : q.advance.unread.length ≤ q.advance.capacity := by
      rw [hunread, hcap]
      exact Nat.le_of_succ_le (Nat.le_trans (Nat.le_of_eq hlength) h.unread_le)
    refine ⟨q.advance, by rw [htry, hlet, hnil]; rfl, ?_, by rw [hunread, hnil]; simp, ?_, ?_⟩
    · exact hflow.settled (by rw [hc]; exact h.capacity_pos) hle (by rw [hw]; exact hnil)
        (hre.trans hrec)
    · rw [hw, hnil, List.tail_nil]
    · rw [shell_advance, shell_eq_iff]
      exact ⟨rfl, rfl, rfl, hw.symm, rfl⟩
  · -- The buffer was full, so everything before it was, and now it is one short.
    have hne : p.waiting.toList ≠ [] := by rw [hcons]; exact List.cons_ne_nil _ _
    obtain ⟨hopen, -⟩ := h.waiting_full hne
    obtain ⟨-, hall⟩ := h.full_of_waiting hne
    have hroom : q.advance.buffer.hasRoom = true := by
      rw [hflow.hasRoom_iff (by rw [hc]; exact h.capacity_pos), hunread, hcap]
      omega
    have hlet : letIn q.advance =
        ({ q.advance with buffer := q.advance.buffer.add w, waiting }, some publication) := by
      rw [letIn, hw]
      simp only [hq, hpop]
      rw [if_pos (by simpa [hq] using hroom)]
    have hsize : q.advance.buffer.items.size + 1 = q.advance.buffer.capacity ∧
        q.advance.hand ≠ none :=
      hflow.short_of_one (by rw [hc]; exact h.capacity_pos) (by rw [hunread, hcap]; omega)
    refine ⟨_, by rw [htry, hlet, hcons]; rfl, ?_, ?_, by rw [hcons]; rfl, ?_⟩
    · exact { room_pos := hflow.room_pos
              channel_le := hflow.channel_le
              hand_full := hflow.hand_full
              buffer_full := fun _ => hsize.2
              capacity_pos := by simp only [Buffer.add]; rw [hc]; exact h.capacity_pos
              buffer_le := by
                simp only [Buffer.add, Fifo.size_push]
                exact Nat.le_of_eq hsize.1
              waiting_full := fun _ => by
                simp only [Buffer.add, Fifo.size_push]
                rw [hcl]
                exact ⟨hopen, hsize.1⟩
              receiver_idle := fun hne => absurd (hre.trans hrec) hne }
    · rw [hcons, ← hunread]
      simp [unread, Buffer.add]
    · rw [shell_eq_iff]
      exact ⟨hr, hc, hcl, rfl, hre⟩

theorem Settled.of_tryReceive (h : p.Settled) {v : α} {rest : List α} (hu : p.unread = v :: rest)
    {p' : Pipeline π ρ α} {reception : Reception α} {publication : Option π}
    (hr : p.tryReceive = (p', reception, publication)) :
    reception = .value v ∧ publication = p.waiting.toList.head?.map (·.1) ∧ p'.Settled ∧
      p'.unread = rest ++ p.waiting.toList.head?.toList.map (·.2) ∧
      p'.waiting.toList = p.waiting.toList.tail ∧
      p'.shell = { p with waiting := p'.waiting }.shell := by
  obtain ⟨_, heq, hrest⟩ := h.tryReceive hu
  rw [hr, Prod.mk.injEq, Prod.mk.injEq] at heq
  obtain ⟨rfl, hreception, hpublication⟩ := heq
  exact ⟨hreception, hpublication, hrest⟩

/-- A receive lets in the first of the publishes parked. -/
theorem Settled.parked_of_tryReceive (h : p.Settled) {p' : Pipeline π ρ α}
    {reception : Reception α} {publication : Option π}
    (hr : p.tryReceive = (p', reception, publication)) :
    p.parked = publication.toList ++ p'.parked := by
  cases hu : p.unread with
  | nil =>
    rw [tryReceive_nil hu, Prod.mk.injEq, Prod.mk.injEq] at hr
    obtain ⟨rfl, -, rfl⟩ := hr
    rfl
  | cons v rest =>
    obtain ⟨-, rfl, -, -, hw, -⟩ := h.of_tryReceive hu hr
    rw [Pipeline.parked, Pipeline.parked, hw]
    cases p.waiting.toList <;> rfl

theorem Settled.mem_parked_of_tryReceive (h : p.Settled) {p' : Pipeline π ρ α}
    {reception : Reception α} {publication : Option π}
    (hr : p.tryReceive = (p', reception, publication)) :
    (∀ x ∈ publication.toList, x ∈ p.parked) ∧ ∀ x ∈ p'.parked, x ∈ p.parked := by
  rw [h.parked_of_tryReceive hr]
  exact ⟨fun _ hx => List.mem_append_left _ hx, fun _ hx => List.mem_append_right _ hx⟩

/-- Both ways of shutting answer the receive that waits, since nothing is left for it. -/
theorem serve_of_shut {q : Pipeline π ρ α} (hclosed : q.buffer.closed = true)
    (hidle : q.receiver ≠ none → q.unread = []) :
    q.serve = ({ q with receiver := none }, q.receiver.toList.map (·, none)) := by
  unfold Pipeline.serve
  cases hrec : q.receiver with
  | none => simp [← hrec]
  | some c =>
    have hu := hidle (by rw [hrec]; exact Option.some_ne_none c)
    simp [channel_pop?_of_unread_nil hu, hasEnded_of_unread_nil hu, hclosed]

/-- A pipeline after retiring. -/
def retired (p : Pipeline π ρ α) : Pipeline π ρ α :=
  { p with buffer := p.buffer.retire, waiting := ∅, receiver := none }

/-- A pipeline after cancelling. -/
def cancelled (p : Pipeline π ρ α) : Pipeline π ρ α :=
  { p with buffer := p.buffer.close, waiting := ∅, receiver := none }

/-- **Retiring.** The receive that waits and the parked publishes return. -/
theorem Settled.retire_eq (h : p.Settled) :
    p.retire = (p.retired, p.receiver.toList.map (·, none), p.parked) := by
  rw [Pipeline.retire, serve_of_shut rfl]
  · rfl
  · exact fun hne => h.unread_of_receiver hne

/-- **Cancelling.** The same calls return. -/
theorem Settled.cancel_eq (h : p.Settled) :
    p.cancel = (p.cancelled, p.receiver.toList.map (·, none), p.parked) := by
  rw [Pipeline.cancel, serve_of_shut rfl]
  · rfl
  · intro hne
    have hu := h.unread_of_receiver hne
    simp only [unread, List.append_eq_nil_iff] at hu ⊢
    exact ⟨hu.1, rfl⟩

theorem Settled.retired (h : p.Settled) : p.retired.Settled where
  room_pos := h.room_pos
  channel_le := h.channel_le
  hand_full := h.hand_full
  buffer_full := h.buffer_full
  capacity_pos := h.capacity_pos
  buffer_le := h.buffer_le
  waiting_full hne := absurd rfl hne
  receiver_idle hne := absurd rfl hne

theorem Settled.cancelled (h : p.Settled) : p.cancelled.Settled where
  room_pos := h.room_pos
  channel_le := h.channel_le
  hand_full := h.hand_full
  buffer_full hb := absurd hb (Nat.lt_irrefl 0)
  capacity_pos := h.capacity_pos
  buffer_le := Nat.zero_le _
  waiting_full hne := absurd rfl hne
  receiver_idle hne := absurd rfl hne

/-- Cancelling discards what is in the buffer and nothing else. -/
@[simp] theorem unread_cancelled (p : Pipeline π ρ α) :
    p.cancelled.unread = p.channel.toList ++ p.hand.toList := by
  show p.channel.toList ++ p.hand.toList ++ [] = _
  rw [List.append_nil]

/-- On a shut pipeline nobody waits. -/
theorem Settled.idle_of_closed (h : p.Settled) (hc : p.buffer.closed = true) :
    p.waiting = ∅ ∧ p.receiver = none := by
  constructor
  · by_contra hne
    have := (h.waiting_full fun hl => hne (Fifo.eq_empty_of_toList hl)).1
    rw [hc] at this
    cases this
  · by_contra hne
    have := (h.receiver_idle hne).1
    rw [hc] at this
    cases this

theorem Settled.retired_of_closed (h : p.Settled) (hc : p.buffer.closed = true) :
    p.retired = p := by
  obtain ⟨hw, hr⟩ := h.idle_of_closed hc
  obtain ⟨room, channel, hand, ⟨capacity, items, closed⟩, waiting, receiver⟩ := p
  simp only at hc hw hr
  subst hc hw hr
  rfl

@[simp] theorem parked_park (publication : π) (v : α) :
    (p.park publication v).parked = p.parked ++ [publication] := by
  simp [parked, park]

theorem Settled.park (h : p.Settled) (hopen : p.buffer.closed = false)
    (hfull : p.buffer.hasRoom = false) (publication : π) (v : α) :
    (p.park publication v).Settled := by
  have hsize : p.buffer.capacity ≤ p.buffer.items.size := by
    simpa [Buffer.hasRoom] using hfull
  exact { toFlowing := ⟨h.room_pos, h.channel_le, h.hand_full, h.buffer_full⟩
          capacity_pos := h.capacity_pos
          buffer_le := h.buffer_le
          waiting_full := fun _ => ⟨hopen, Nat.le_antisymm h.buffer_le hsize⟩
          receiver_idle := h.receiver_idle }

theorem Settled.await (h : p.Settled) (hopen : p.buffer.closed = false) (hu : p.unread = [])
    (caller : ρ) : Settled { p with receiver := some caller } :=
  { toFlowing := ⟨h.room_pos, h.channel_le, h.hand_full, h.buffer_full⟩
    capacity_pos := h.capacity_pos
    buffer_le := h.buffer_le
    waiting_full := h.waiting_full
    receiver_idle := fun _ => by
      refine ⟨hopen, ?_⟩
      simp only [unread, List.append_eq_nil_iff] at hu
      rw [Fifo.size_eq_length, hu.1.1]
      rfl }

end operations

end Pipeline

end Switchboard
