/-!
# First-in first-out sequences

A sequence that grows at one end and shrinks at the other, both in constant time on average.

**The view.** `toList` lists the elements from the oldest to the newest. Each operation has one
equation through it (`toList_push`, `toList_eq_cons_of_pop?`, `pop?_eq_none_iff`), so nothing
built on a sequence needs its layout.
-/

namespace Switchboard

/-- A first-in first-out sequence: the older elements in order, the newer ones in reverse. -/
structure Fifo (α : Type) where
  older : List α
  newer : List α
  size : Nat
  size_eq : size = older.length + newer.length

namespace Fifo

variable {α : Type}

/-- The sequence without elements. -/
def empty : Fifo α := ⟨[], [], 0, rfl⟩

instance : EmptyCollection (Fifo α) := ⟨empty⟩

/-- The elements from the oldest to the newest. -/
def toList (q : Fifo α) : List α := q.older ++ q.newer.reverse

/-- Whether there is no element. -/
def isEmpty (q : Fifo α) : Bool := q.size == 0

/-- Add an element behind all others. -/
def push (q : Fifo α) (a : α) : Fifo α :=
  ⟨q.older, a :: q.newer, q.size + 1, by simp [q.size_eq]; omega⟩

/-- The oldest element and the sequence without it. -/
def pop? : Fifo α → Option (α × Fifo α)
  | ⟨a :: rest, newer, n, h⟩ => some (a, ⟨rest, newer, n - 1, by simp at h; omega⟩)
  | ⟨[], newer, n, h⟩ =>
    match hr : newer.reverse with
    | [] => none
    | a :: rest =>
      some (a, ⟨rest, [], n - 1, by
        have := congrArg List.length hr
        simp at this h ⊢
        omega⟩)

/-! ## Through the view -/

@[simp] theorem toList_push (q : Fifo α) (a : α) : (q.push a).toList = q.toList ++ [a] := by
  simp [toList, push]

theorem size_eq_length (q : Fifo α) : q.size = q.toList.length := by
  simp [toList, q.size_eq]

@[simp] theorem size_push (q : Fifo α) (a : α) : (q.push a).size = q.size + 1 := rfl

theorem isEmpty_iff (q : Fifo α) : q.isEmpty = true ↔ q.toList = [] := by
  simp [isEmpty, size_eq_length]

/-- What is taken off is the head, and what is left is the tail. -/
theorem toList_eq_cons_of_pop? {q r : Fifo α} {a : α} (h : q.pop? = some (a, r)) :
    q.toList = a :: r.toList := by
  unfold pop? at h
  split at h
  · simp only [Option.some.injEq, Prod.mk.injEq] at h
    obtain ⟨rfl, rfl⟩ := h
    rfl
  · split at h
    · simp at h
    · rename_i hr
      simp only [Option.some.injEq, Prod.mk.injEq] at h
      obtain ⟨rfl, rfl⟩ := h
      simp [toList, hr]

theorem pop?_eq_none_iff {q : Fifo α} : q.pop? = none ↔ q.toList = [] := by
  unfold pop?
  split
  · simp [toList]
  · split
    · rename_i hr
      simp [toList, hr]
    · rename_i hr
      simp [toList, hr]

/-- A sequence with an element in it gives up the oldest. -/
theorem exists_pop?_of_toList {q : Fifo α} {a : α} {rest : List α} (h : q.toList = a :: rest) :
    ∃ r, q.pop? = some (a, r) ∧ r.toList = rest := by
  cases hp : q.pop? with
  | none => simp [pop?_eq_none_iff.mp hp] at h
  | some p =>
    have := toList_eq_cons_of_pop? hp
    rw [h, List.cons.injEq] at this
    exact ⟨p.2, by rw [this.1], this.2.symm⟩

theorem pop?_of_toList_nil {q : Fifo α} (h : q.toList = []) : q.pop? = none :=
  pop?_eq_none_iff.mpr h

theorem eq_empty_of_toList {q : Fifo α} (h : q.toList = []) : q = ∅ := by
  obtain ⟨older, newer, size, hsize⟩ := q
  simp only [toList, List.append_eq_nil_iff, List.reverse_eq_nil_iff] at h
  obtain ⟨rfl, rfl⟩ := h
  obtain rfl : size = 0 := hsize
  rfl

/-- What can come of taking the oldest element. -/
theorem pop?_cases (q : Fifo α) :
    (q.pop? = none ∧ q.toList = []) ∨
      ∃ a r, q.pop? = some (a, r) ∧ q.toList = a :: r.toList ∧ q.size = r.size + 1 := by
  cases h : q.pop? with
  | none => exact Or.inl ⟨rfl, pop?_eq_none_iff.mp h⟩
  | some p =>
    have hl := toList_eq_cons_of_pop? h
    refine Or.inr ⟨p.1, p.2, rfl, hl, ?_⟩
    rw [size_eq_length, size_eq_length, hl, List.length_cons]

end Fifo

end Switchboard
