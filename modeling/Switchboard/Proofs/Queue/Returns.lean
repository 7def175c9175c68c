import Mathlib.Data.List.Induction
import Mathlib.Data.List.Nodup
import Switchboard.Proofs.Queue.Histories

/-!
# What the calls on a queue return with

A call returns in its own step, or it waits and returns in the step that releases it. Here the
returns of a whole run are written down in order, for pushes and for pops.

**Calls** (`pushesOf`, `popsOf`). A call is named by its place among the steps.

**Returns** (`pushReturns`, `popReturns`). A return says which call came back, in which step, and
with what.

**Main statement** (`pushes_accounted`). Every push of a run has returned once or is waiting.
-/

namespace Switchboard.Queue

variable {α β : Type}

/-! ## The calls of a run -/

/-- The calls of one kind among some steps: the place of each, and what the kind says of it. -/
def issued (kind : Step α → Option β) (steps : List (Step α)) : List (Nat × β) :=
  steps.zipIdx.filterMap fun s => (kind s.1).map (s.2, ·)

/-- The pushes among some steps, waiting or not, with their values. -/
def pushesOf (steps : List (Step α)) : List (Nat × α) := issued Step.value? steps

/-- Whether a step wants to take a value, as a kind of call. -/
def Step.take? (st : Step α) : Option Unit := if st.takes then some () else none

/-- The pops among some steps, waiting or not. -/
def popsOf (steps : List (Step α)) : List Nat := (issued Step.take? steps).map (·.1)

theorem issued_concat (kind : Step α → Option β) (steps : List (Step α)) (st : Step α) :
    issued kind (steps ++ [st]) =
      issued kind steps ++ ((kind st).map (steps.length, ·)).toList := by
  rw [issued, List.zipIdx_append, List.filterMap_append, Nat.zero_add]
  cases h : kind st <;> simp [issued, h]

theorem lt_of_mem_issued {kind : Step α → Option β} {steps : List (Step α)} {c : Nat × β}
    (h : c ∈ issued kind steps) : c.1 < steps.length := by
  obtain ⟨⟨st, n⟩, hmem, hkind⟩ := List.mem_filterMap.mp h
  obtain ⟨b, -, rfl⟩ := Option.map_eq_some_iff.mp hkind
  have hlt := (List.mem_zipIdx hmem).2.1
  simpa using hlt

/-- No call is issued twice. -/
theorem nodup_issued (kind : Step α → Option β) (steps : List (Step α)) :
    ((issued kind steps).map (·.1)).Nodup := by
  induction steps using List.reverseRecOn with
  | nil => exact List.nodup_nil
  | append_singleton steps st ih =>
    rw [issued_concat, List.map_append]
    cases kind st with
    | none => simpa using ih
    | some b =>
      refine ih.append (List.nodup_singleton _) fun n hold hnew => ?_
      obtain ⟨c, hc, rfl⟩ := List.mem_map.mp hold
      exact Nat.ne_of_lt (lt_of_mem_issued hc) (by simpa using hnew)

theorem pushesOf_concat (steps : List (Step α)) (st : Step α) :
    pushesOf (steps ++ [st]) = pushesOf steps ++ (st.value?.map (steps.length, ·)).toList :=
  issued_concat ..

theorem popsOf_concat (steps : List (Step α)) (st : Step α) :
    popsOf (steps ++ [st]) = popsOf steps ++ if st.takes then [steps.length] else [] := by
  rw [popsOf, issued_concat, List.map_append]
  cases h : st.takes <;> simp [popsOf, Step.take?, h]

theorem lt_of_mem_popsOf {steps : List (Step α)} {n : Nat} (h : n ∈ popsOf steps) :
    n < steps.length := by
  obtain ⟨c, hc, rfl⟩ := List.mem_map.mp h
  exact lt_of_mem_issued hc

/-! ## The returns of a run -/

/-- A call that came back: its place, the step in which it came back, and its answer. -/
structure Return (β : Type) where
  call : Nat
  step : Nat
  answer : β
deriving DecidableEq, Repr

/-- A call that came back in its own step. -/
def Return.direct (call : Nat) (answer : β) : Return β := ⟨call, call, answer⟩

/-- The pushes that return in step `now`, and whether their values were stored. -/
def Deed.pushReturns (d : Deed Nat Nat α) (st : Step α) (now : Nat) : List (Return Bool) :=
  (if st.value?.isSome && !d.parked then [.direct now d.stored.isSome] else []) ++
    d.released.filterMap fun
      | .pushed call accepted => some ⟨call, now, accepted⟩
      | .popped .. => none

/-- The pops that return in step `now`, and the values they return with. -/
def Deed.popReturns (d : Deed Nat Nat α) (st : Step α) (now : Nat) : List (Return (Option α)) :=
  (if st.takes && !d.parked then [.direct now d.taken] else []) ++
    d.released.filterMap fun
      | .popped call v => some ⟨call, now, v⟩
      | .pushed .. => none

namespace History

theorem extend_concat (h : History α) (steps : List (Step α)) (st : Step α) :
    h.extend (steps ++ [st]) = (h.extend steps).next st :=
  List.foldl_append ..

/-- What further steps bring, one after the other. -/
def gather (f : History α → Step α → List β) : History α → List (Step α) → List β
  | _, [] => []
  | h, st :: rest => f h st ++ gather f (h.next st) rest

theorem gather_append (f : History α → Step α → List β) (h : History α)
    (before after : List (Step α)) :
    h.gather f (before ++ after) = h.gather f before ++ (h.extend before).gather f after := by
  induction before generalizing h with
  | nil => rfl
  | cons st before ih =>
    rw [List.cons_append, gather, gather, ih, List.append_assoc]
    rfl

theorem gather_concat (f : History α → Step α → List β) (h : History α) (steps : List (Step α))
    (st : Step α) : h.gather f (steps ++ [st]) = h.gather f steps ++ f (h.extend steps) st := by
  rw [gather_append, gather, gather, List.append_nil]

/-- The pushes that return in the next step. -/
def pushReturns (h : History α) (st : Step α) : List (Return Bool) :=
  (h.act st).2.pushReturns st h.steps.length

/-- The pops that return in the next step. -/
def popReturns (h : History α) (st : Step α) : List (Return (Option α)) :=
  (h.act st).2.popReturns st h.steps.length

end History

/-- The pushes that return in some steps on a new queue. -/
def pushReturns (capacity : Nat) (steps : List (Step α)) : List (Return Bool) :=
  (History.start capacity).gather History.pushReturns steps

/-- The pops that return in some steps on a new queue. -/
def popReturns (capacity : Nat) (steps : List (Step α)) : List (Return (Option α)) :=
  (History.start capacity).gather History.popReturns steps

theorem pushReturns_append (capacity : Nat) (before after : List (Step α)) :
    pushReturns capacity (before ++ after) =
      pushReturns capacity before ++ (history capacity before).gather History.pushReturns after :=
  History.gather_append ..

theorem popReturns_append (capacity : Nat) (before after : List (Step α)) :
    popReturns capacity (before ++ after) =
      popReturns capacity before ++ (history capacity before).gather History.popReturns after :=
  History.gather_append ..

theorem history_concat (capacity : Nat) (steps : List (Step α)) (st : Step α) :
    history capacity (steps ++ [st]) = (history capacity steps).next st :=
  History.extend_concat ..

theorem length_history (capacity : Nat) (steps : List (Step α)) :
    (history capacity steps).steps.length = steps.length :=
  congrArg List.length (steps_history capacity steps)

theorem pushReturns_concat (capacity : Nat) (steps : List (Step α)) (st : Step α) :
    pushReturns capacity (steps ++ [st]) =
      pushReturns capacity steps ++ (history capacity steps).pushReturns st :=
  History.gather_concat ..

theorem popReturns_concat (capacity : Nat) (steps : List (Step α)) (st : Step α) :
    popReturns capacity (steps ++ [st]) =
      popReturns capacity steps ++ (history capacity steps).popReturns st :=
  History.gather_concat ..

/-! ## No push is lost -/

section account

variable {pusher popper : Nat} {w w' : View Nat Nat α} {st : Step α} {d : Deed Nat Nat α}

/-- The calls that return are the step's own, unless it waits, and those released. -/
theorem Deed.call_pushReturns (d : Deed Nat Nat α) (st : Step α) (now : Nat) :
    (d.pushReturns st now).map (·.call) =
      (if st.value?.isSome && !d.parked then [now] else []) ++ pushesIn d.released := by
  rw [pushReturns, List.map_append, List.map_filterMap, pushesIn]
  congr 1
  · split <;> rfl
  · apply List.filterMap_congr
    intro r _
    cases r <;> rfl

/-- Only pushes and pops wait. -/
theorem Move.parked_eq_false (hm : Move pusher popper w st d w') (hpush : st.value? = none)
    (hpop : st.takes = false) : d.parked = false := by
  cases hm with
  | parkPush _ _ => cases hpush
  | parkPop _ _ => cases hpop
  | _ => rfl

theorem takes_of_value {v : α} (h : st.value? = some v) : st.takes = false := by
  cases st with
  | push _ | tryPush _ => rfl
  | _ => cases h

/-- **A step loses no push.** Those that waited and the new one have returned or wait. -/
theorem Move.pushes_accounted (hm : Move pusher popper w st d w') :
    List.Perm ((d.pushReturns st pusher).map (·.call) ++ w'.pushers.map (·.1))
      (w.pushers.map (·.1) ++ (st.value?.map fun _ => pusher).toList) := by
  rw [Deed.call_pushReturns, List.append_assoc, ← hm.lines.1]
  cases hv : st.value? with
  | none =>
    by_cases ht : st.takes = true
    · simp [ht]
    · have hcalm := hm.parked_eq_false hv (Bool.eq_false_iff.mpr ht)
      simp [hcalm]
  | some v =>
    cases hd : d.parked with
    | false =>
      have hfront : List.Perm (pusher :: w.pushers.map (·.1)) (w.pushers.map (·.1) ++ [pusher]) :=
        (List.perm_append_singleton ..).symm
      simpa using hfront
    | true => simp [takes_of_value hv]

end account

/-- **Every push of a run has returned once or is waiting.** -/
theorem pushes_accounted (capacity : Nat) (steps : List (Step α)) :
    List.Perm ((pushReturns capacity steps).map (·.call) ++
        (history capacity steps).queue.pushers.toList.map (·.1))
      ((pushesOf steps).map (·.1)) := by
  induction steps using List.reverseRecOn with
  | nil => exact List.Perm.refl _
  | append_singleton steps st ih =>
    have hm := ((sound_history capacity steps).moves st).pushes_accounted
    rw [length_history] at hm
    have hnew : ((st.value?.map (steps.length, ·)).toList.map (·.1) : List Nat) =
        (st.value?.map fun _ => steps.length).toList := by
      cases st.value? <;> rfl
    rw [pushReturns_concat, history_concat, pushesOf_concat, List.map_append, List.map_append,
      List.append_assoc, History.pushReturns, length_history, hnew]
    exact (hm.append_left _).trans (by rw [← List.append_assoc]; exact ih.append_right _)

/-- A push that waits has not returned. -/
theorem not_returned_of_waiting (capacity : Nat) (steps : List (Step α)) {p : Nat × α}
    (hp : p ∈ (history capacity steps).queue.pushers.toList) :
    ∀ r ∈ pushReturns capacity steps, r.call ≠ p.1 := by
  have hnodup := (pushes_accounted capacity steps).nodup_iff.mpr (nodup_issued _ steps)
  intro r hr heq
  exact (List.nodup_append.mp hnodup).2.2 _ (List.mem_map_of_mem hr) _ (List.mem_map_of_mem hp) heq

end Switchboard.Queue
