/-!
# Finite tables

A finite map from keys to values in which the last write under a key wins.

**The view.** `get?` says what is bound to a key. An insertion changes it at one key
(`get?_insert`), an erasure forgets one key (`get?_erase`), and the number of entries is the number
of keys, since no key occurs twice.
-/

namespace Switchboard

/-- A finite map, as a list of entries with pairwise distinct keys. -/
structure Table (κ ν : Type) where
  entries : List (κ × ν)
  distinct : (entries.map Prod.fst).Nodup

namespace Table

variable {κ ν : Type} [DecidableEq κ]

/-- The map without entries. -/
def empty : Table κ ν := ⟨[], List.nodup_nil⟩

instance : EmptyCollection (Table κ ν) := ⟨empty⟩

/-- The keys that are bound. -/
def keys (t : Table κ ν) : List κ := t.entries.map Prod.fst

/-- The value bound to a key. -/
def get? (t : Table κ ν) (k : κ) : Option ν := t.entries.lookup k

/-- The number of entries. -/
def size (t : Table κ ν) : Nat := t.entries.length

/-- Whether nothing is bound. -/
def isEmpty (t : Table κ ν) : Bool := t.entries.isEmpty

/-- The entries with the value at `k` replaced. -/
def replace (k : κ) (v : ν) (entries : List (κ × ν)) : List (κ × ν) :=
  entries.map fun e => if e.1 = k then (k, v) else e

theorem map_fst_replace (k : κ) (v : ν) (entries : List (κ × ν)) :
    (replace k v entries).map Prod.fst = entries.map Prod.fst := by
  simp only [replace, List.map_map]
  apply List.map_congr_left
  intro e _
  by_cases h : e.1 = k <;> simp [h]

/-- Bind a value to a key, in place of the value bound before. -/
def insert (t : Table κ ν) (k : κ) (v : ν) : Table κ ν :=
  if h : k ∈ t.entries.map Prod.fst then
    ⟨replace k v t.entries, by rw [map_fst_replace]; exact t.distinct⟩
  else
    ⟨t.entries ++ [(k, v)], by
      have := t.distinct
      simp only [List.map_append, List.map_cons, List.map_nil, List.nodup_append, this,
        true_and]
      refine ⟨by simp, ?_⟩
      intro a ha b hb
      simp only [List.mem_singleton] at hb
      exact fun hab => h (hb ▸ hab ▸ ha)⟩

/-- Forget a key. -/
def erase (t : Table κ ν) (k : κ) : Table κ ν :=
  ⟨t.entries.filter fun e => e.1 ≠ k, by
    have := t.distinct
    exact (List.Sublist.map _ List.filter_sublist).nodup this⟩

/-- The entries in ascending order of their keys. -/
def sorted [LT κ] [DecidableLT κ] (t : Table κ ν) : List (κ × ν) :=
  t.entries.mergeSort fun a b => !decide (b.1 < a.1)

/-- Whether two tables bind the same keys to the same values. -/
def agrees [DecidableEq ν] (s t : Table κ ν) : Bool :=
  s.size == t.size && s.entries.all fun e => t.get? e.1 == some e.2

/-! ## Through the view -/

theorem lookup_replace (k j : κ) (v : ν) (entries : List (κ × ν)) :
    (replace k v entries).lookup j =
      if j = k then (if k ∈ entries.map Prod.fst then some v else none)
      else entries.lookup j := by
  induction entries with
  | nil => simp [replace]
  | cons e rest ih =>
    obtain ⟨a, b⟩ := e
    simp only [replace, List.map_cons] at ih ⊢
    by_cases hak : a = k
    · subst hak
      by_cases hj : j = a
      · subst hj
        simp
      · have : (j == a) = false := by simpa using hj
        simp only [if_true, List.lookup_cons, this, ih, if_neg hj]
    · by_cases hj : j = a
      · subst hj
        simp [hak]
      · have : (j == a) = false := by simpa using hj
        simp only [if_neg hak, List.lookup_cons, this, ih]
        by_cases hjk : j = k
        · subst hjk
          simp only [if_true, List.mem_cons, hj, false_or]
        · simp [hjk]

theorem lookup_append_single (k j : κ) (v : ν) (entries : List (κ × ν))
    (h : k ∉ entries.map Prod.fst) :
    (entries ++ [(k, v)]).lookup j = if j = k then some v else entries.lookup j := by
  rw [List.lookup_append, List.lookup_cons]
  by_cases hj : j = k
  · subst hj
    have hnone : entries.lookup j = none := List.lookup_eq_none_iff.mpr fun e he =>
      bne_iff_ne.mpr fun heq => h (List.mem_map.mpr ⟨e, he, heq.symm⟩)
    rw [hnone, beq_self_eq_true, if_pos rfl, Option.none_or]
  · rw [beq_false_of_ne hj, if_neg hj]
    exact Option.or_none

/-- An insertion changes what is bound to its own key and nothing else. -/
theorem get?_insert (t : Table κ ν) (k j : κ) (v : ν) :
    (t.insert k v).get? j = if j = k then some v else t.get? j := by
  unfold insert get?
  split
  · rename_i h
    rw [lookup_replace, if_pos h]
  · rename_i h
    rw [lookup_append_single k j v t.entries h]

theorem lookup_filter (k j : κ) (entries : List (κ × ν)) :
    (entries.filter fun e => e.1 ≠ k).lookup j = if j = k then none else entries.lookup j := by
  induction entries with
  | nil => simp
  | cons e rest ih =>
    obtain ⟨a, b⟩ := e
    by_cases hak : a = k
    · subst hak
      simp only [ne_eq, not_true_eq_false, decide_false, Bool.false_eq_true, not_false_eq_true,
        List.filter_cons_of_neg, List.lookup_cons]
      rw [ih]
      by_cases hj : j = a
      · simp [hj]
      · have : (j == a) = false := by simpa using hj
        simp [hj, this]
    · rw [List.filter_cons_of_pos (by simpa using hak)]
      by_cases hj : j = a
      · subst hj
        simp [hak]
      · have : (j == a) = false := by simpa using hj
        simp only [List.lookup_cons, this, ih]

/-- An erasure forgets its own key and nothing else. -/
theorem get?_erase (t : Table κ ν) (k j : κ) :
    (t.erase k).get? j = if j = k then none else t.get? j :=
  lookup_filter k j t.entries

theorem lookup_eq_some_iff_mem {entries : List (κ × ν)} (h : (entries.map Prod.fst).Nodup)
    {k : κ} {v : ν} : entries.lookup k = some v ↔ (k, v) ∈ entries := by
  induction entries with
  | nil => simp
  | cons e rest ih =>
    obtain ⟨a, b⟩ := e
    rw [List.map_cons, List.nodup_cons] at h
    by_cases hk : k = a
    · subst hk
      have hout : (k, v) ∉ rest := fun hmem => h.1 (List.mem_map.mpr ⟨(k, v), hmem, rfl⟩)
      simp [hout, eq_comm]
    · have : (k == a) = false := by simpa using hk
      simp [List.lookup_cons, this, ih h.2, hk]

/-- The entries are the bindings. -/
theorem mem_entries_iff {t : Table κ ν} {k : κ} {v : ν} :
    (k, v) ∈ t.entries ↔ t.get? k = some v :=
  (lookup_eq_some_iff_mem t.distinct).symm

/-- The keys are those that something is bound to. -/
theorem mem_keys_iff {t : Table κ ν} {k : κ} : k ∈ t.keys ↔ (t.get? k).isSome = true := by
  rw [keys, List.mem_map, Option.isSome_iff_exists]
  constructor
  · rintro ⟨⟨k, v⟩, hmem, rfl⟩
    exact ⟨v, mem_entries_iff.mp hmem⟩
  · rintro ⟨v, hv⟩
    exact ⟨(k, v), mem_entries_iff.mpr hv, rfl⟩

end Table

end Switchboard
