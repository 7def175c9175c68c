import Switchboard.Proofs.Session.Rest

/-!
# Teardowns

No connection leaks and none is torn down twice.

**Main statement** (`torn_down_exactly_once`). In every run, every connection ever established has
been torn down once, except the one installed, which has not been torn down. With that, only the
installed connection has a termination signal pending, and it does have one unless its connect is
still parked.
-/

namespace Switchboard

/-- The connections established so far. -/
def Connector.established (c : Connector) : List Serial := List.range' 1 c.lastSerial

theorem Connector.mem_established {c : Connector} {x : Serial} :
    x ∈ c.established ↔ 1 ≤ x ∧ x ≤ c.lastSerial := by
  rw [established, List.mem_range'_1, Nat.add_comm, Nat.lt_succ_iff]

namespace Session

section rest

variable {r : Run}

theorem Run.AtRest.count_tornDown (hr : r.AtRest) {x : Serial}
    (hx : x ∈ r.session.connector.established) :
    r.session.connector.tornDown.count x = if r.session.installed = some x then 0 else 1 := by
  obtain ⟨hone, hlast⟩ := Connector.mem_established.mp hx
  refine (hr.valid.accounted.torn x).trans ?_
  by_cases hi : r.session.installed = some x
  · rw [if_pos hi, if_neg fun h => h.2.2 hi]
  · rw [if_neg hi, if_pos ⟨hone, hlast, hi⟩]

theorem Run.AtRest.mem_established_of_tornDown (hr : r.AtRest) {x : Serial}
    (hx : x ∈ r.session.connector.tornDown) : x ∈ r.session.connector.established := by
  have hcount := hr.valid.accounted.torn x
  by_contra hnot
  rw [if_neg fun h => hnot (Connector.mem_established.mpr ⟨h.1, h.2.1⟩)] at hcount
  exact List.count_eq_zero.mp hcount hx

theorem Run.AtRest.installed_eq_none (hr : r.AtRest)
    (h : r.session.released = true ∨ r.session.isHeld = false) : r.session.installed = none := by
  refine hr.valid.installed_eq_none (h.elim id fun hfree => ?_)
  refine hr.kept.resolve_right fun hheld => ?_
  rw [hfree] at hheld
  cases hheld

theorem Run.AtRest.liveSessions_le_one (hr : r.AtRest) : r.session.connector.liveSessions ≤ 1 := by
  have hone := hr.valid.accounted.pending
  have hnodup := hr.valid.accounted.once
  unfold Connector.liveSessions
  show r.session.life.pending.length ≤ 1
  rcases hpending : r.session.life.pending with _ | ⟨x, _ | ⟨y, rest⟩⟩
  · exact Nat.zero_le 1
  · exact Nat.le_refl 1
  · have hx := hone x (hpending ▸ List.mem_cons_self ..)
    have hy := hone y (hpending ▸ List.mem_cons_of_mem _ (List.mem_cons_self ..))
    rw [show (r.scene.session.life.pending) = _ from hpending, Option.some.inj (hx.symm.trans hy)]
      at hnodup
    exact absurd (List.mem_cons_self ..) (List.nodup_cons.mp hnodup).1

/-- The signal of the installed session is pending, unless its connect is parked. -/
theorem Run.AtRest.pending_of_installed (hr : r.AtRest) {x : Serial}
    (hi : r.session.installed = some x)
    (hreturned : ∀ call, .connect call x ∉ parkedCalls r.session.messages) :
    x ∈ r.session.connector.pending := by
  obtain ⟨w, hw, rfl, hguards⟩ := hr.valid.accounted.watched x hi
  have hrunning : w.running = true := by
    by_contra hnot
    obtain ⟨call, hparked⟩ := hguards.running (Bool.eq_false_iff.mpr hnot)
    exact hreturned call hparked
  -- A running watch that knew of the end of its signal would have gone on.
  have hquiet := hr.quiet w hw
  rw [isReady, hrunning, Bool.true_and, Option.isSome_eq_false_iff, Option.isNone_iff_eq_none]
    at hquiet
  exact hguards.pending hquiet

end rest

/-- **Every connection is torn down exactly once, except the one installed.** -/
theorem torn_down_exactly_once (settings : Settings) (players : List Player)
    (catalog : List Packet.Entry) (steps : List Step) :
    let s := (run settings players catalog steps).session
    (∀ x ∈ s.connector.established,
        s.connector.tornDown.count x = if s.installed = some x then 0 else 1) ∧
      (∀ x ∈ s.connector.tornDown, x ∈ s.connector.established) ∧
      (s.released = true ∨ s.isHeld = false →
        ∀ x ∈ s.connector.established, s.connector.tornDown.count x = 1) ∧
      (∀ x ∈ s.connector.pending, s.installed = some x) ∧
      s.connector.liveSessions ≤ 1 ∧
      (s.connector.liveSessions = 1 → s.isConnected = true) ∧
      ∀ x, s.installed = some x → (∀ call, .connect call x ∉ parkedCalls s.messages) →
        s.connector.liveSessions = 1 := by
  intro s
  have hr := run_atRest settings players catalog steps
  have hpending : ∀ x ∈ s.connector.pending, s.installed = some x := hr.valid.accounted.pending
  have hle : s.connector.liveSessions ≤ 1 := hr.liveSessions_le_one
  refine ⟨fun x hx => hr.count_tornDown hx, fun x hx => hr.mem_established_of_tornDown hx,
    fun hgone x hx => ?_, hpending, hle, fun hlive => ?_, fun x hi hreturned => ?_⟩
  · have hnone : s.installed = none := hr.installed_eq_none hgone
    rw [hr.count_tornDown hx, if_neg]
    rw [show (run settings players catalog steps).session.installed = none from hnone]
    exact nofun
  · -- A live connection has its signal pending, and so is installed.
    obtain ⟨x, hx⟩ := List.exists_mem_of_length_pos (hlive ▸ Nat.zero_lt_one)
    rw [isConnected_iff, hpending x hx]
    exact nofun
  · have hpos := List.length_pos_of_mem (hr.pending_of_installed hi hreturned)
    exact Nat.le_antisymm hle hpos

/-- The first of three connects wins. It is terminated, the next is disconnected although the
teardown fails, and the last one goes with the state. -/
example :
    (run .standard [] [] [.connect (.forServer "s"), .race 2 (.forServer "s"), .failTeardown true,
      .terminate .signalLost, .connect (.forServer "s"), .disconnect, .connect (.forServer "s"),
      .disown]).session.connector.tornDown = [5, 4, 1, 3, 2] := by
  decide +kernel

end Session

end Switchboard
