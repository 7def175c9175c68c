import Switchboard.Text.Blank

/-!
# What trimming leaves

Dropping the run of characters of a class at an end of a text leaves a text that does not start, or
end, with a character of the class, and takes away characters of the class only. A text that is
like that already stays as it is.
-/

namespace Switchboard.Text

variable {α : Type} {p : α → Bool} {xs ys : List α}

/-! ## One end -/

theorem head?_dropWhile (p : α → Bool) (xs : List α) : (xs.dropWhile p).head?.any p = false := by
  have hhead := List.head?_dropWhile_not p xs
  cases hx : (xs.dropWhile p).head? with
  | none => rfl
  | some x => simpa [hx] using hhead

theorem dropWhile_of_head? (h : xs.head?.any p = false) : xs.dropWhile p = xs := by
  cases xs with
  | nil => rfl
  | cons x xs =>
    have hx : p x = false := h
    simp [hx]

/-- What is dropped in front belongs to the class. -/
theorem exists_dropWhile (p : α → Bool) (xs : List α) :
    ∃ front, xs = front ++ xs.dropWhile p ∧ ∀ x ∈ front, p x = true :=
  ⟨xs.takeWhile p, List.takeWhile_append_dropWhile.symm, List.all_eq_true.mp List.all_takeWhile⟩

theorem getLast?_dropEndWhile (p : α → Bool) (xs : List α) :
    (dropEndWhile p xs).getLast?.any p = false := by
  rw [dropEndWhile, List.getLast?_reverse]
  exact head?_dropWhile p xs.reverse

theorem dropEndWhile_of_getLast? (h : xs.getLast?.any p = false) : dropEndWhile p xs = xs := by
  rw [← List.head?_reverse] at h
  rw [dropEndWhile, dropWhile_of_head? h, List.reverse_reverse]

/-- What is dropped at the end belongs to the class. -/
theorem exists_dropEndWhile (p : α → Bool) (xs : List α) :
    ∃ back, xs = dropEndWhile p xs ++ back ∧ ∀ x ∈ back, p x = true := by
  obtain ⟨front, hfront, hclass⟩ := exists_dropWhile p xs.reverse
  refine ⟨front.reverse, ?_, fun x hx => hclass x (List.mem_reverse.mp hx)⟩
  rw [dropEndWhile, ← List.reverse_append, ← hfront, List.reverse_reverse]

/-! ## Parts of a text -/

theorem head?_of_prefix (h : xs <+: ys) (hys : ys.head?.any p = false) :
    xs.head?.any p = false := by
  obtain ⟨back, rfl⟩ := h
  cases xs with
  | nil => rfl
  | cons x xs => exact hys

theorem getLast?_of_suffix (h : xs <:+ ys) (hys : ys.getLast?.any p = false) :
    xs.getLast?.any p = false := by
  rw [← List.head?_reverse] at hys ⊢
  exact head?_of_prefix (List.reverse_prefix.mpr h) hys

/-! ## Both ends -/

theorem head?_trimChars (s : List Char) : (trimChars s).head?.any isBlank = false := by
  obtain ⟨back, hback, -⟩ := exists_dropEndWhile isBlank (trimStart s)
  exact head?_of_prefix ⟨back, hback.symm⟩ (head?_dropWhile isBlank s)

theorem getLast?_trimChars (s : List Char) : (trimChars s).getLast?.any isBlank = false :=
  getLast?_dropEndWhile isBlank (trimStart s)

/-- A text without white space at its ends stays as it is. -/
theorem trimChars_of_ends {s : List Char} (hhead : s.head?.any isBlank = false)
    (hlast : s.getLast?.any isBlank = false) : trimChars s = s := by
  rw [trimChars, trimStart, dropWhile_of_head? hhead, dropEndWhile_of_getLast? hlast]

/-- Trimming takes white space away and nothing else. -/
theorem exists_trimChars (s : List Char) :
    ∃ lead trail, s = lead ++ trimChars s ++ trail ∧
      (∀ c ∈ lead, isBlank c = true) ∧ ∀ c ∈ trail, isBlank c = true := by
  obtain ⟨lead, hlead, hblank⟩ := exists_dropWhile isBlank s
  obtain ⟨trail, htrail, hblank'⟩ := exists_dropEndWhile isBlank (trimStart s)
  refine ⟨lead, trail, ?_, hblank, hblank'⟩
  rw [List.append_assoc, trimChars, ← htrail]
  exact hlead

end Switchboard.Text
